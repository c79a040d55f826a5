/-
This file says what becomes of a back-reference that is written as bare digits. The characters it is
read from settle that the digits are all of its text; its key alone settles whether they count as a
number. Without a key the reference goes to the group with that number. With a key, as in `\g1`, the
digits are looked up among the names of groups, and the group that has the number is passed over.

Between the reading of a reference and its resolution anything may happen to the automaton. What the
reference was read as stays, since only its group can change, and the groups that count are those
that are there when it is resolved.
-/

import PatternGraph.Proofs.Resolution

namespace PatternGraph

/-! ### What bare digits call for -/

section

variable {source : Source} {start stop : SourceCharacter} {number : Nat} {group : Option StateId}

/-- Outside of delimiters the text of a reference runs through its last character. -/
theorem BackReference.groupName_read (bare : opensName start.character = false)
    (key : Option SourceCharacter) :
    (read source key start stop).groupName = source.textAt (start.range.through stop.range) := by
  rw [read, bare]
  rfl

theorem BackReference.calls_of_unkeyed (bare : opensName start.character = false)
    (numeral : Text.numeral32? (source.textAt (start.range.through stop.range)) = some number)
    (name : Option String) (other : Nat) :
    { read source none start stop with group }.Calls name other ↔ other = number := by
  refine calls_of_number ?_
  rw [← numeral, ← groupName_read bare none]
  rfl

theorem BackReference.calls_of_keyed (letter : SourceCharacter)
    (bare : opensName start.character = false) (name : Option String) (other : Nat) :
    { read source (some letter) start stop with group }.Calls name other ↔
      name = some (source.textAt (start.range.through stop.range)) := by
  rw [← groupName_read bare (some letter)]
  exact calls_of_name rfl

end

namespace Automaton

/-- A capturing group with its name and its number. -/
def IsGroup (automaton : Automaton) (id : StateId) (name : Option String) (number : Nat) : Prop :=
  ∃ treeNode body, automaton.tree? id = some treeNode ∧
    treeNode.node = .capturingGroup body name number

theorem isGroupWith_iff {automaton : Automaton} {id : StateId}
    {accepts : Option String → Nat → Bool} : automaton.isGroupWith accepts id = true ↔
      ∃ name number, automaton.IsGroup id name number ∧ accepts name number = true := by
  unfold isGroupWith IsGroup
  cases automaton.tree? id with
  | none => simp
  | some treeNode =>
    rw [Option.map_some]
    cases content : treeNode.node with
    | capturingGroup body name number => simp [content]
    | _ => simp [content]

instance (automaton : Automaton) (id : StateId) (name : Option String) (number : Nat) :
    Decidable (automaton.IsGroup id name number) :=
  decidable_of_iff (automaton.isGroupWith (fun given other => given == name && other == number) id)
    (by simp [isGroupWith_iff])

/-- The capturing group built last of those that a condition on name and number admits. -/
structure LastGroup (automaton : Automaton) (admits : Option String → Nat → Prop)
    (group : StateId) : Prop where
  admitted : ∃ name number, automaton.IsGroup group name number ∧ admits name number
  last {other : StateId} {name : Option String} {number : Nat} :
    automaton.IsGroup other name number → admits name number → other.index ≤ group.index

section

variable {automaton : Automaton} {reference : BackReference} {id group : StateId}
  {admits : Option String → Nat → Prop}

theorem called_iff (calls : ∀ name number, reference.Calls name number ↔ admits name number) :
    automaton.Called reference id ↔
      ∃ name number, automaton.IsGroup id name number ∧ admits name number := by
  constructor
  · rintro ⟨treeNode, body, name, number, isTree, content, called⟩
    exact ⟨name, number, ⟨treeNode, body, isTree, content⟩, (calls name number).mp called⟩
  · rintro ⟨name, number, ⟨treeNode, body, isTree, content⟩, admitted⟩
    exact ⟨treeNode, body, name, number, isTree, content, (calls name number).mpr admitted⟩

theorem means_iff_lastGroup
    (calls : ∀ name number, reference.Calls name number ↔ admits name number) :
    automaton.Means reference group ↔ automaton.LastGroup admits group := by
  constructor
  · intro means
    refine ⟨(called_iff calls).mp means.called, fun isGroup admitted => ?_⟩
    exact means.last ((called_iff calls).mpr ⟨_, _, isGroup, admitted⟩)
  · intro lastGroup
    refine ⟨(called_iff calls).mpr lastGroup.admitted, fun called => ?_⟩
    obtain ⟨name, number, isGroup, admitted⟩ := (called_iff calls).mp called
    exact lastGroup.last isGroup admitted

/-! ### From reading to resolution -/

/-- A reference stays what it was read as, whatever group it comes to refer to. -/
theorem Keeps.reference? {links regroups : Bool} {before after : Automaton}
    (keeps : before.Keeps links regroups after) (was : before.reference? id = some reference) :
    ∃ group, after.reference? id = some { reference with group } := by
  obtain ⟨treeNode, isTree, content⟩ := reference?_eq_some_iff.mp was
  obtain ⟨later, found, evolves⟩ := keeps.state (tree?_eq_some_iff.mp isTree)
  cases evolves with
  | glue glue => cases glue
  | @tree _ later evolves =>
    have isLater := tree?_eq_some_iff.mpr found
    rcases evolves.node with same | ⟨-, original, group, was, became⟩
    · exact ⟨reference.group, reference?_eq_some_iff.mpr ⟨later, isLater, same.trans content⟩⟩
    · cases content.symm.trans was
      exact ⟨group, reference?_eq_some_iff.mpr ⟨later, isLater, became⟩⟩

theorem reference?_construct (automaton : Automaton) (opener : SourceCharacter)
    (key : Option SourceCharacter) (start stop : SourceCharacter) (flags : FlagSet) :
    (automaton.construct (.backReference automaton.source opener key start stop
      flags)).automaton.reference? automaton.nextId =
      some (.read automaton.source key start stop) :=
  reference?_eq_some_iff.mpr ⟨_, tree?_eq_some_iff.mpr (state?_push_nextId automaton _), rfl⟩

/-- Resolving links a reference to the last of the groups that it calls for, if there are any. -/
theorem exists_lastGroup_of_admitted (isReference : automaton.reference? id = some reference)
    (calls : ∀ name number, reference.Calls name number ↔ admits name number)
    (admitted : ∃ group name number, automaton.IsGroup group name number ∧ admits name number) :
    ∃ group, automaton.LastGroup admits group ∧
      automaton.resolveReferences.automaton.reference? id =
        some { reference with group := some group } := by
  obtain ⟨treeNode, isTree, content⟩ := reference?_eq_some_iff.mp isReference
  obtain ⟨candidate, isCandidate⟩ := admitted
  obtain ⟨group, means, linked⟩ := tree?_resolveReferences_of_called isTree content
    ⟨candidate, (called_iff calls).mpr isCandidate⟩
  exact ⟨group, (means_iff_lastGroup calls).mp means, reference?_eq_some_iff.mpr ⟨_, linked, rfl⟩⟩

/-- Resolving leaves a reference alone that calls for no group there is. -/
theorem state?_resolveReferences_of_unadmitted
    (isReference : automaton.reference? id = some reference)
    (calls : ∀ name number, reference.Calls name number ↔ admits name number)
    (unadmitted : ∀ group name number, automaton.IsGroup group name number →
      ¬ admits name number) :
    automaton.resolveReferences.automaton.state? id = automaton.state? id := by
  refine state?_resolveReferences_of_uncalled fun other isOther group called => ?_
  cases isReference.symm.trans isOther
  obtain ⟨name, number, isGroup, admitted⟩ := (called_iff calls).mp called
  exact unadmitted group name number isGroup admitted

end

/-- A back-reference is written as bare digits and resolved at any later time, when some group has
that number. Without a key it is linked to the last such group. With a key it is linked to the last
group that has the digits as its name, and left as it was if there is none. -/
theorem bare_digits_resolved (automaton : Automaton) {opener start stop : SourceCharacter}
    {key : Option SourceCharacter} {flags : FlagSet} {operations : List Operation} {number : Nat} :
    let digits := automaton.source.textAt (start.range.through stop.range)
    let read := automaton.construct (.backReference automaton.source opener key start stop flags)
    let later := read.automaton.afterAll operations
    let resolved := later.resolveReferences.automaton
    BackReference.opensName start.character = false →
    Text.numeral32? digits = some number →
    (∃ group name, later.IsGroup group name number) →
    (key = none → ∃ group, later.LastGroup (fun _ other => other = number) group ∧
      resolved.reference? automaton.nextId = some ⟨digits, none, some group⟩) ∧
    ∀ letter, key = some letter →
      ((∃ group other, later.IsGroup group (some digits) other) →
        ∃ group, later.LastGroup (fun name _ => name = some digits) group ∧
          resolved.reference? automaton.nextId = some ⟨digits, some letter, some group⟩) ∧
      ((∀ group other, ¬ later.IsGroup group (some digits) other) →
        resolved.state? automaton.nextId = later.state? automaton.nextId) := by
  intro digits read later resolved bare numeral numbered
  obtain ⟨former, isReference⟩ := (read.automaton.keeps_afterAll operations).reference?
    (automaton.reference?_construct opener key start stop flags)
  have named (key : Option SourceCharacter) :
      (BackReference.read automaton.source key start stop).groupName = digits :=
    BackReference.groupName_read bare key
  refine ⟨?_, ?_⟩
  · rintro rfl
    obtain ⟨group, name, isGroup⟩ := numbered
    obtain ⟨target, lastGroup, linked⟩ := exists_lastGroup_of_admitted isReference
      (BackReference.calls_of_unkeyed bare numeral) ⟨group, name, number, isGroup, rfl⟩
    exact ⟨target, lastGroup, named none ▸ linked⟩
  · rintro letter rfl
    have calls (name : Option String) (other : Nat) :
        { BackReference.read automaton.source (some letter) start stop with group := former }.Calls
          name other ↔ name = some digits := BackReference.calls_of_keyed letter bare name other
    refine ⟨?_, fun nameless => ?_⟩
    · rintro ⟨group, other, isGroup⟩
      obtain ⟨target, lastGroup, linked⟩ :=
        exists_lastGroup_of_admitted isReference calls ⟨group, _, other, isGroup, rfl⟩
      exact ⟨target, lastGroup, named (some letter) ▸ linked⟩
    · refine state?_resolveReferences_of_unadmitted isReference calls ?_
      rintro group name other isGroup rfl
      exact nameless group other isGroup

/-- The calls that build `(a)`. -/
def groupCalls : List Call :=
  [.construct ⟨⟨1, 2⟩, .empty, .leaf (.character ⟨97, false⟩)⟩,
    .construct ⟨⟨0, 3⟩, .empty, .capturingGroup none 1 ⟨0⟩⟩]

/-- In `(a)\1(b)` with two groups of number 1 the reference comes before the group it is linked
to. -/
theorem twoGroups_bare_digits_resolved :
    let grouped := ((ofSource ⟨"(a)\\1(b)", .java, []⟩).performAll groupCalls).automaton
    let digit : SourceCharacter := ⟨⟨4, 5⟩, '1', false⟩
    let read := grouped.construct
      (.backReference grouped.source ⟨⟨3, 4⟩, '\\', false⟩ none digit digit .empty)
    let later := read.automaton.afterAll
      [.build (.ok ⟨⟨6, 7⟩, .empty, .leaf (.character ⟨98, false⟩)⟩),
        .build (.ok ⟨⟨5, 8⟩, .empty, .capturingGroup none 1 ⟨4⟩⟩)]
    BackReference.opensName '1' = false ∧
      Text.numeral32? (grouped.source.textAt (digit.range.through digit.range)) = some 1 ∧
      later.IsGroup ⟨5⟩ none 1 ∧
      ∃ group, later.LastGroup (fun _ other => other = 1) group ∧
        later.resolveReferences.automaton.reference? grouped.nextId =
          some ⟨grouped.source.textAt (digit.range.through digit.range), none, some group⟩ := by
  intro grouped digit read later
  have bare : BackReference.opensName '1' = false := by decide
  have numeral : Text.numeral32? (grouped.source.textAt (digit.range.through digit.range)) =
      some 1 := by decide +kernel
  have isGroup : later.IsGroup ⟨5⟩ none 1 := by decide +kernel
  have resolved := grouped.bare_digits_resolved bare numeral ⟨⟨5⟩, none, isGroup⟩
  exact ⟨bare, numeral, isGroup, resolved.left rfl⟩

/-- In `(a)\g1` the digits of the reference are a number that a group has, and it is linked to none:
with its key `g` it is taken for a reference to a group named `1`. -/
theorem keyed_digits_refer_to_name :
    let grouped := ((ofSource ⟨"(a)\\g1", .java, []⟩).performAll groupCalls).automaton
    let key : SourceCharacter := ⟨⟨4, 5⟩, 'g', false⟩
    let digit : SourceCharacter := ⟨⟨5, 6⟩, '1', false⟩
    let read := grouped.construct
      (.backReference grouped.source ⟨⟨3, 4⟩, '\\', false⟩ (some key) digit digit .empty)
    read.answer = .ok ⟨3⟩ ∧ BackReference.opensName '1' = false ∧
      Text.numeral32? (grouped.source.textAt (digit.range.through digit.range)) = some 1 ∧
      read.automaton.IsGroup ⟨1⟩ none 1 ∧ read.automaton.resolveReferences.answer = .ok 0 ∧
      read.automaton.resolveReferences.automaton.reference? ⟨3⟩ = some ⟨"1", some key, none⟩ := by
  intro grouped key digit read
  refine ⟨by decide +kernel, by decide, by decide +kernel, by decide +kernel, by decide +kernel,
    by decide +kernel⟩

end Automaton

end PatternGraph
