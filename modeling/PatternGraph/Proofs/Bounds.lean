/-
This file says which texts are bounds of a quantifier in curly braces and what the quantifier makes
of them. A bound is a numeral whose value fits in 32 bits; a value that does not fit is refused
rather than cut down.

The tokens play different parts. The minimum is read first, so its fault is the one reported if both
tokens are at fault. The maximum is read whether or not there is a comma, but without a comma its
value is not used: the quantifier is then fixed at the minimum. An absent minimum is zero, and an
absent maximum behind a comma leaves the quantifier open ended.
-/

import PatternGraph.Answer
import PatternGraph.Proofs.Text.Numerals
import PatternGraph.Syntax.Quantifier

namespace PatternGraph

/-! ### Bounds -/

/-- The text of the token is a numeral of the value, which fits in 32 bits. -/
def Token.IsBound (token : Token) (source : Source) (value : Nat) : Prop :=
  Text.IsNumeral (source.textAt token.range) value ∧ value ≤ 2 ^ 32 - 1

/-- The token is no bound whatever the value. -/
def Token.Offends (token : Token) (source : Source) : Prop := ∀ value, ¬ token.IsBound source value

namespace Quantifier

section

variable {source : Source} {token : Token}

theorem bound?_eq_ok_iff {value : Nat} :
    bound? source token = .ok value ↔ token.IsBound source value := by
  unfold bound? Token.IsBound
  rw [← Text.numeral32?_eq_some_iff]
  dsimp only
  cases Text.numeral32? (source.textAt token.range) <;> simp

theorem bound?_eq_error_iff {fault : SyntaxFault} :
    bound? source token = .error fault ↔
      token.Offends source ∧ .invalidBound (source.textAt token.range) token.range = fault := by
  unfold Token.Offends
  simp only [← bound?_eq_ok_iff]
  unfold bound?
  dsimp only
  cases Text.numeral32? (source.textAt token.range) <;> simp

end

/-! ### The three tokens -/

/-- The value of the minimum token, which is zero if there is none. -/
def minimum? (source : Source) : Option Token → Except SyntaxFault Nat
  | some token => bound? source token
  | none => .ok 0

/-- The value of the maximum token, if there is one. -/
def maximum? (source : Source) : Option Token → Except SyntaxFault (Option Nat)
  | some token => (bound? source token).map some
  | none => .ok none

/-- What a quantifier with the three tokens comes to if the tokens are bounds. -/
structure ReadsBounds (source : Source) (minimumToken commaToken maximumToken : Option Token)
    (quantifier : Quantifier) : Prop where
  minimum_absent : minimumToken = none → quantifier.minimum = 0
  minimum_token : ∀ token ∈ minimumToken, token.IsBound source quantifier.minimum
  maximum_fixed : commaToken = none → quantifier.maximum = some quantifier.minimum
  maximum_token : commaToken ≠ none → ∀ token ∈ maximumToken,
    ∃ value, quantifier.maximum = some value ∧ token.IsBound source value
  maximum_absent : commaToken ≠ none → maximumToken = none → quantifier.maximum = none
  isFixed_iff : quantifier.isFixed = true ↔ commaToken = none
  isOpenEnded_iff : quantifier.isOpenEnded = true ↔ commaToken ≠ none ∧ maximumToken = none

/-- The token is the first at fault, where the minimum comes before the maximum. -/
def FirstOffender (source : Source) (minimumToken maximumToken : Option Token) (token : Token) :
    Prop :=
  token.Offends source ∧ (token ∈ minimumToken ∨
    token ∈ maximumToken ∧ ∀ other ∈ minimumToken, ¬ other.Offends source)

section

variable {source : Source} {token? : Option Token} {fault : SyntaxFault}

theorem minimum?_eq_ok_iff {value : Nat} : minimum? source token? = .ok value ↔
    (token? = none → value = 0) ∧ ∀ token ∈ token?, token.IsBound source value := by
  cases token? with
  | none => simp [minimum?, eq_comm]
  | some token => simp [minimum?, bound?_eq_ok_iff]

theorem maximum?_eq_ok_iff {maximum : Option Nat} : maximum? source token? = .ok maximum ↔
    (token? = none → maximum = none) ∧
      ∀ token ∈ token?, ∃ value, maximum = some value ∧ token.IsBound source value := by
  cases token? with
  | none => simp [maximum?, eq_comm]
  | some token =>
    simp only [maximum?, ← bound?_eq_ok_iff]
    cases read : bound? source token with
    | error fault => simp [Except.map, read]
    | ok value => simp [Except.map, read, eq_comm]

theorem minimum?_eq_error_iff : minimum? source token? = .error fault ↔
    ∃ token ∈ token?, token.Offends source ∧
      .invalidBound (source.textAt token.range) token.range = fault := by
  cases token? with
  | none => simp [minimum?]
  | some token => simp [minimum?, bound?_eq_error_iff]

theorem maximum?_eq_error_iff : maximum? source token? = .error fault ↔
    ∃ token ∈ token?, token.Offends source ∧
      .invalidBound (source.textAt token.range) token.range = fault := by
  cases token? with
  | none => simp [maximum?]
  | some token =>
    simp only [maximum?, Option.mem_some_iff, exists_eq_left', ← bound?_eq_error_iff]
    cases bound? source token <;> simp [Except.map]

end

section

variable (source : Source) (range : TextRange) (modifier : Modifier)
  (minimumToken commaToken maximumToken : Option Token)

/-- The minimum is read before the maximum. -/
theorem ofCurly?_eq : ofCurly? source range modifier minimumToken commaToken maximumToken =
    (minimum? source minimumToken).bind fun minimum =>
      (maximum? source maximumToken).bind fun maximum => .ok
        ⟨range, modifier, .curly ⟨minimumToken, commaToken, maximumToken, minimum, maximum⟩⟩ := by
  cases minimumToken <;> cases maximumToken <;> rfl

variable {source minimumToken maximumToken}

theorem readsBounds_of_read {minimum : Nat} {maximum : Option Nat}
    (readMinimum : minimum? source minimumToken = .ok minimum)
    (readMaximum : maximum? source maximumToken = .ok maximum) :
    ReadsBounds source minimumToken commaToken maximumToken
      ⟨range, modifier, .curly ⟨minimumToken, commaToken, maximumToken, minimum, maximum⟩⟩ := by
  obtain ⟨absentMinimum, isMinimum⟩ := minimum?_eq_ok_iff.mp readMinimum
  obtain ⟨absentMaximum, isMaximum⟩ := maximum?_eq_ok_iff.mp readMaximum
  refine
    { minimum_absent := absentMinimum
      minimum_token := isMinimum
      maximum_fixed := fun fixed => by simp [Quantifier.maximum, Quantifier.minimum, fixed]
      maximum_token := fun comma token isToken => ?maximum_token
      maximum_absent := fun comma absent => ?maximum_absent
      isFixed_iff := by simp [isFixed]
      isOpenEnded_iff := ?isOpenEnded_iff }
  case maximum_token =>
    simpa [Quantifier.maximum, comma] using isMaximum token isToken
  case maximum_absent =>
    simpa [Quantifier.maximum, comma] using absentMaximum absent
  case isOpenEnded_iff =>
    cases maximumToken with
    | none => simp [isOpenEnded, Quantifier.maximum, absentMaximum rfl]
    | some token =>
      obtain ⟨value, rfl, -⟩ := isMaximum token rfl
      cases commaToken <;> simp [isOpenEnded, Quantifier.maximum]

variable {range modifier commaToken}

/-- A quantifier that is made has read both tokens. -/
theorem exists_read_of_ofCurly? {quantifier : Quantifier}
    (made : ofCurly? source range modifier minimumToken commaToken maximumToken =
      .ok quantifier) :
    ∃ minimum maximum, minimum? source minimumToken = .ok minimum ∧
      maximum? source maximumToken = .ok maximum ∧ quantifier =
        ⟨range, modifier, .curly ⟨minimumToken, commaToken, maximumToken, minimum, maximum⟩⟩ := by
  rw [ofCurly?_eq] at made
  obtain ⟨minimum, readMinimum, rest⟩ := exists_of_bind_eq_ok made
  obtain ⟨maximum, readMaximum, same⟩ := exists_of_bind_eq_ok rest
  exact ⟨minimum, maximum, readMinimum, readMaximum, (Except.ok.inj same).symm⟩

/-- A quantifier that is refused has met a token at fault, and none before it. -/
theorem exists_firstOffender_of_ofCurly? {fault : SyntaxFault}
    (refused : ofCurly? source range modifier minimumToken commaToken maximumToken =
      .error fault) :
    ∃ token, FirstOffender source minimumToken maximumToken token ∧
      fault = .invalidBound (source.textAt token.range) token.range := by
  rw [ofCurly?_eq] at refused
  cases readMinimum : minimum? source minimumToken with
  | error minimumFault =>
    obtain ⟨token, isToken, offends, rfl⟩ := minimum?_eq_error_iff.mp readMinimum
    rw [readMinimum, Except.bind] at refused
    cases refused
    exact ⟨token, ⟨offends, Or.inl isToken⟩, rfl⟩
  | ok minimum =>
    have isMinimum := (minimum?_eq_ok_iff.mp readMinimum).2
    cases readMaximum : maximum? source maximumToken with
    | ok maximum => simp [readMinimum, readMaximum, Except.bind] at refused
    | error maximumFault =>
      obtain ⟨token, isToken, offends, rfl⟩ := maximum?_eq_error_iff.mp readMaximum
      rw [readMinimum, Except.bind, readMaximum, Except.bind] at refused
      cases refused
      exact ⟨token, ⟨offends, Or.inr ⟨isToken, fun other isMinimumToken offendsToo =>
        offendsToo minimum (isMinimum other isMinimumToken)⟩⟩, rfl⟩

end

end Quantifier

/-- A quantifier in curly braces is made exactly if each of its bound tokens is a numeral that fits
in 32 bits, the maximum also where no comma makes it count. It then has the values of the tokens as
its bounds. Otherwise the first token at fault is reported, with its text and its range. -/
theorem Quantifier.ofCurly?_reads_bounds (source : Source) (range : TextRange) (modifier : Modifier)
    (minimumToken commaToken maximumToken : Option Token) :
    let read := ofCurly? source range modifier minimumToken commaToken maximumToken
    ((∃ quantifier, read = .ok quantifier) ↔
      ∀ token, token ∈ minimumToken ∨ token ∈ maximumToken →
        ∃ value, token.IsBound source value) ∧
    match read with
    | .ok quantifier => quantifier.range = range ∧ quantifier.modifier = modifier ∧
        ReadsBounds source minimumToken commaToken maximumToken quantifier
    | .error fault => ∃ token, FirstOffender source minimumToken maximumToken token ∧
        fault = .invalidBound (source.textAt token.range) token.range := by
  intro read
  cases outcome : ofCurly? source range modifier minimumToken commaToken maximumToken with
  | ok quantifier =>
    obtain ⟨minimum, maximum, readMinimum, readMaximum, rfl⟩ := exists_read_of_ofCurly? outcome
    have isMinimum := (minimum?_eq_ok_iff.mp readMinimum).2
    have isMaximum := (maximum?_eq_ok_iff.mp readMaximum).2
    rw [show read = _ from outcome]
    refine ⟨⟨fun _ token isToken => ?_, fun _ => ⟨_, rfl⟩⟩, rfl, rfl,
      readsBounds_of_read range modifier commaToken readMinimum readMaximum⟩
    rcases isToken with first | last
    · exact ⟨minimum, isMinimum token first⟩
    · obtain ⟨value, -, isBound⟩ := isMaximum token last
      exact ⟨value, isBound⟩
  | error fault =>
    obtain ⟨token, first, reported⟩ := exists_firstOffender_of_ofCurly? outcome
    rw [show read = _ from outcome]
    refine ⟨⟨fun made => ?_, fun all => ?_⟩, token, first, reported⟩
    · obtain ⟨quantifier, made⟩ := made
      cases made
    · obtain ⟨value, isBound⟩ := all token (first.2.imp_right And.left)
      exact absurd isBound (first.1 value)

/-- In `a{+007,4294967296}` the minimum is seven, and the maximum is refused for being too large. -/
example :
    let source : Source := ⟨"a{+007,4294967296}", .java, []⟩
    let read (maximum : Option Token) := Quantifier.ofCurly? source ⟨1, 18⟩ .greedy
      (some ⟨⟨2, 6⟩⟩) (some ⟨⟨6, 7⟩⟩) maximum
    (read none).map Quantifier.minimum = .ok 7 ∧
      read (some ⟨⟨7, 17⟩⟩) = .error (.invalidBound "4294967296" ⟨7, 17⟩) := by
  decide +kernel

end PatternGraph
