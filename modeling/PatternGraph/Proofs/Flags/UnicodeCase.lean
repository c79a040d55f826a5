/-
This file says when the Unicode character classes imply Unicode case. Switching on the classes
switches on case, and joining sets keeps what is on in either, so no flag is ever added that breaks
the implication. Removing is exact: what is on in the other set goes off and nothing else. A removal
of case alone therefore leaves the classes behind without it.

That is the only way in which the implication is lost. It holds of all sets along a history exactly
if no removal takes case but not the classes from a set that has the classes.
-/

import PatternGraph.Answer
import PatternGraph.Proofs.Flags.Cells

namespace PatternGraph

/-- A mask that asks for the Unicode character classes asks for Unicode case. -/
theorem asksFor_unicodeCase {mask : FlagMask}
    (asked : asksFor mask Flag.unicodeCharacterClass.position = true) :
    asksFor mask Flag.unicodeCase.position = true := by
  have requested : mask.getLsb Flag.unicodeCharacterClass.position = true := by
    simpa [asksFor, Flag.position] using asked
  rw [asksFor, requested, beq_self_eq_true, Bool.and_true, Bool.or_true]

namespace FlagSet

/-- With the Unicode character classes Unicode case is on. -/
def ImpliesCase (flags : FlagSet) : Prop :=
  flags.contains Flag.unicodeCharacterClass.mask → flags.contains Flag.unicodeCase.mask

/-- Not only case is removed from a set with the Unicode character classes. -/
def SparesCase (flags removed : FlagSet) : Prop :=
  flags.contains Flag.unicodeCharacterClass.mask → removed.contains Flag.unicodeCase.mask →
    removed.contains Flag.unicodeCharacterClass.mask

section

variable {flags other : FlagSet}

theorem impliesCase_empty : empty.ImpliesCase := by
  intro absurd
  cases absurd

theorem ImpliesCase.add (implies : flags.ImpliesCase) (mask : FlagMask) :
    (flags.add mask).ImpliesCase := by
  unfold ImpliesCase at implies ⊢
  rw [contains_mask, contains_mask] at implies ⊢
  rw [getLsb_mask_add, getLsb_mask_add, Bool.or_eq_true, Bool.or_eq_true]
  exact Or.imp implies asksFor_unicodeCase

theorem ImpliesCase.addFrom (implies : flags.ImpliesCase) (mask : FlagMask)
    (character : SourceCharacter) : (flags.addFrom mask character).ImpliesCase := by
  have same : (flags.addFrom mask character).mask = (flags.add mask).mask := rfl
  unfold ImpliesCase contains
  rw [same]
  exact implies.add mask

theorem ImpliesCase.addAll (implies : flags.ImpliesCase) (impliesToo : other.ImpliesCase) :
    (flags.addAll other).ImpliesCase := by
  unfold ImpliesCase at implies impliesToo ⊢
  rw [contains_mask, contains_mask] at implies impliesToo ⊢
  rw [getLsb_mask_addAll, getLsb_mask_addAll, Bool.or_eq_true, Bool.or_eq_true]
  exact Or.imp implies impliesToo

theorem contains_removeAll (flags other : FlagSet) (flag : Flag) :
    (flags.removeAll other).contains flag.mask =
      (flags.contains flag.mask && !other.contains flag.mask) := by
  rw [contains_mask, contains_mask, contains_mask, getLsb_mask_removeAll]

theorem ImpliesCase.removeAll (implies : flags.ImpliesCase) (spares : flags.SparesCase other) :
    (flags.removeAll other).ImpliesCase := by
  unfold ImpliesCase
  rw [contains_removeAll, contains_removeAll]
  intro left
  obtain ⟨hasClasses, sparesClasses⟩ := Bool.and_eq_true_iff.mp left
  rw [implies hasClasses, Bool.true_and]
  cases takesCase : other.contains Flag.unicodeCase.mask with
  | false => rfl
  | true =>
    rw [spares hasClasses takesCase] at sparesClasses
    cases sparesClasses

/-- Whether case was on before does not matter: it is off afterwards. -/
theorem sparesCase_of_removeAll (implies : (flags.removeAll other).ImpliesCase) :
    flags.SparesCase other := by
  intro hasClasses takesCase
  cases takesClasses : other.contains Flag.unicodeCharacterClass.mask with
  | true => rfl
  | false =>
    unfold ImpliesCase at implies
    rw [contains_removeAll, contains_removeAll, hasClasses, takesClasses, takesCase,
      Bool.not_true, Bool.and_false] at implies
    exact absurd (implies rfl) Bool.false_ne_true

/-- Reading letters adds flags one by one, so it keeps what adding keeps. -/
theorem ofLetters?_preserves {motive : FlagSet → Prop} (begins : motive empty)
    (add : ∀ flags (flag : Flag), motive flags → motive (flags.add flag.mask)) {letters : String}
    (read : ofLetters? letters = .ok flags) : motive flags := by
  unfold ofLetters? at read
  generalize empty = start at begins read
  generalize letters.toList = row at read
  induction row generalizing start with
  | nil => exact Except.ok.inj read ▸ begins
  | cons letter rest inductionHypothesis =>
    rw [List.foldlM_cons] at read
    cases known : Flag.ofLetter? letter with
    | none =>
      rw [known] at read
      cases read
    | some flag =>
      rw [known] at read
      exact inductionHypothesis _ (add start flag begins) read

end

end FlagSet

namespace FlagHistory

/-- The histories of the sets from which the last operation made its set. -/
def earlier : FlagHistory → List FlagHistory
  | new | ofMask _ | ofLetters _ => []
  | add before _ | addFrom before _ _ => [before]
  | addAll before other | removeAll before other => [before, other]

/-- One history is a part of another: the other itself, or a part of what came before. -/
inductive Within : FlagHistory → FlagHistory → Prop
  | refl (history : FlagHistory) : Within history history
  | step {part before history : FlagHistory} (member : before ∈ history.earlier)
    (within : Within part before) : Within part history

/-- No removal takes Unicode case alone away from a set with the Unicode character classes. -/
def RemovesWithCare (history : FlagHistory) : Prop :=
  ∀ before other, (removeAll before other).Within history →
    ∀ flags removed, before.flags = .ok flags → other.flags = .ok removed →
      flags.SparesCase removed

theorem RemovesWithCare.earlier {before history : FlagHistory}
    (careful : history.RemovesWithCare) (member : before ∈ history.earlier) :
    before.RemovesWithCare :=
  fun _ _ within => careful _ _ (.step member within)

theorem RemovesWithCare.within {part history : FlagHistory} (careful : history.RemovesWithCare)
    (within : part.Within history) : part.RemovesWithCare := by
  induction within with
  | refl => exact careful
  | step member _ inductionHypothesis => exact inductionHypothesis (careful.earlier member)

theorem flags_of_bind {first second : Except SyntaxFault FlagSet}
    {combine : FlagSet → FlagSet → FlagSet} {flags : FlagSet}
    (made : (first.bind fun flags => second.map (combine flags)) = .ok flags) :
    ∃ before other, first = .ok before ∧ second = .ok other ∧ combine before other = flags := by
  obtain ⟨before, madeBefore, rest⟩ := exists_of_bind_eq_ok made
  obtain ⟨other, madeOther, combined⟩ := exists_of_map_eq_ok rest
  exact ⟨before, other, madeBefore, madeOther, combined⟩

/-- The induction is on the history. Only the removal of a set asks for care. -/
theorem RemovesWithCare.impliesCase {history : FlagHistory} (careful : history.RemovesWithCare)
    {flags : FlagSet} (made : history.flags = .ok flags) : flags.ImpliesCase := by
  induction history generalizing flags with
  | new => exact Except.ok.inj made ▸ FlagSet.impliesCase_empty
  | ofMask mask => exact Except.ok.inj made ▸ FlagSet.impliesCase_empty.add mask
  | ofLetters letters =>
    exact FlagSet.ofLetters?_preserves FlagSet.impliesCase_empty
      (fun _ flag implies => implies.add flag.mask) made
  | add before mask kept =>
    obtain ⟨was, madeBefore, rfl⟩ := exists_of_map_eq_ok made
    exact (kept (careful.earlier (.head _)) madeBefore).add mask
  | addFrom before mask character kept =>
    obtain ⟨was, madeBefore, rfl⟩ := exists_of_map_eq_ok made
    exact (kept (careful.earlier (.head _)) madeBefore).addFrom mask character
  | addAll before other kept keptToo =>
    obtain ⟨was, joined, madeBefore, madeOther, rfl⟩ := flags_of_bind made
    exact (kept (careful.earlier (.head _)) madeBefore).addAll
      (keptToo (careful.earlier (.tail _ (.head _))) madeOther)
  | removeAll before other kept keptToo =>
    obtain ⟨was, removed, madeBefore, madeOther, rfl⟩ := flags_of_bind made
    exact (kept (careful.earlier (.head _)) madeBefore).removeAll
      (careful before other (.refl _) was removed madeBefore madeOther)

end FlagHistory

/-- The Unicode character classes imply Unicode case in a set and in all sets that it was made from
exactly if no removal on the way took case but not the classes from a set with the classes. -/
theorem unicodeCase_of_unicodeCharacterClass_iff (history : FlagHistory) :
    history.RemovesWithCare ↔ ∀ part : FlagHistory, part.Within history →
      ∀ flags : FlagSet, part.flags = .ok flags →
        flags.contains Flag.unicodeCharacterClass.mask → flags.contains Flag.unicodeCase.mask := by
  constructor
  · exact fun careful part within flags made => (careful.within within).impliesCase made
  · intro implies before other within flags removed made madeOther
    refine FlagSet.sparesCase_of_removeAll (implies _ within _ ?_)
    rw [FlagHistory.flags, made, madeOther]
    rfl

/-- Removing case from the classes leaves the classes without it. -/
theorem classes_without_case :
    ∃ flags, (FlagHistory.removeAll (.ofMask Flag.unicodeCharacterClass.mask)
        (.ofMask Flag.unicodeCase.mask)).flags = .ok flags ∧
      flags.contains Flag.unicodeCharacterClass.mask = true ∧
      flags.contains Flag.unicodeCase.mask = false :=
  ⟨_, rfl, by decide, by decide⟩

end PatternGraph
