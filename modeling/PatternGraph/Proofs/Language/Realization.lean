/-
This file says what it means that the graph realizes a language between two states: every word of
the language is read on some path from the one to the other, and every path from the first state to
the final one begins with a word of the language and comes to the second state.

The second half cannot be stated with paths to the second state, because such a path may pass
through it many times before it ends; with paths to the final state it composes. The paths are
counted by their moves, and what is left of a path is never longer than the path. This is what
loops are taken by: each turn of a loop takes at least the move into its body, so the number of
moves that are left decreases.
-/

import PatternGraph.Proofs.Language.Basic

namespace PatternGraph

open scoped Computability

namespace Automaton

/-- A path of some length with the word of its states, the last one left out. -/
inductive Reads (automaton : Automaton) : Nat → StateId → List StateId → StateId → Prop
  | here (id : StateId) : Reads automaton 0 id [] id
  | move {length : Nat} {id next goal : StateId} {word : List StateId}
    (moves : automaton.Moves id next) (rest : Reads automaton length next word goal) :
    Reads automaton (length + 1) id (automaton.word [id] ++ word) goal

theorem word_cons (automaton : Automaton) (id : StateId) (visited : List StateId) :
    automaton.word (id :: visited) = automaton.word [id] ++ automaton.word visited :=
  List.filter_append [id] visited

theorem Reads.append {automaton : Automaton} {first second : Nat} {id middle goal : StateId}
    {front back : List StateId} (reads : automaton.Reads first id front middle)
    (then_reads : automaton.Reads second middle back goal) :
    ∃ length, automaton.Reads length id (front ++ back) goal := by
  induction reads with
  | here id => exact ⟨second, then_reads⟩
  | move moves rest inductionHypothesis =>
    obtain ⟨length, whole⟩ := inductionHypothesis then_reads
    rw [List.append_assoc]
    exact ⟨length + 1, .move moves whole⟩

/-- Paths with and without their last state are the same. -/
theorem exists_walk_iff {automaton : Automaton} {id goal : StateId} {word : List StateId} :
    (∃ visited, automaton.Walk id visited goal ∧ automaton.word visited = word) ↔
      ∃ length front, automaton.Reads length id front goal ∧
        front ++ automaton.word [goal] = word := by
  constructor
  · rintro ⟨visited, walk, rfl⟩
    induction walk with
    | stop id => exact ⟨0, [], .here id, rfl⟩
    | step moves rest inductionHypothesis =>
      obtain ⟨length, front, reads, same⟩ := inductionHypothesis
      refine ⟨length + 1, _, .move moves reads, ?_⟩
      rw [List.append_assoc, same]
      exact (automaton.word_cons _ _).symm
  · rintro ⟨length, front, reads, rfl⟩
    induction reads with
    | here id => exact ⟨[id], .stop id, rfl⟩
    | move moves rest inductionHypothesis =>
      obtain ⟨visited, walk, same⟩ := inductionHypothesis
      refine ⟨_, .step moves walk, ?_⟩
      rw [word_cons, same, List.append_assoc]

/-- The graph realizes the language between two states, seen from paths that end in `final`. -/
structure Realizes (automaton : Automaton) (final id next : StateId)
    (language : Language StateId) : Prop where
  complete {word : List StateId} : word ∈ language → ∃ length, automaton.Reads length id word next
  sound {length : Nat} {word : List StateId} : automaton.Reads length id word final →
    ∃ front ∈ language, ∃ back shorter, front ++ back = word ∧ shorter ≤ length ∧
      automaton.Reads shorter next back final

namespace Realizes

variable {automaton : Automaton} {final id next : StateId}

theorem refl (automaton : Automaton) (final id : StateId) : automaton.Realizes final id id 1 := by
  refine ⟨fun empty => ?_, fun {length word} reads => ?_⟩
  · rw [(Language.mem_one _).mp empty]
    exact ⟨0, .here id⟩
  · exact ⟨[], Language.nil_mem_one, word, length, rfl, Nat.le_refl _, reads⟩

theorem trans {middle : StateId} {first second : Language StateId}
    (realizes : automaton.Realizes final id middle first)
    (then_realizes : automaton.Realizes final middle next second) :
    automaton.Realizes final id next (first * second) := by
  refine ⟨fun member => ?_, fun reads => ?_⟩
  · obtain ⟨front, inFirst, back, inSecond, rfl⟩ := Language.mem_mul.mp member
    obtain ⟨_, reads⟩ := realizes.complete inFirst
    obtain ⟨_, furtherReads⟩ := then_realizes.complete inSecond
    exact reads.append furtherReads
  · obtain ⟨front, inFirst, rest, middling, rfl, less, reads⟩ := realizes.sound reads
    obtain ⟨inner, inSecond, back, shorter, rfl, lesser, furtherReads⟩ :=
      then_realizes.sound reads
    exact ⟨front ++ inner, Language.append_mem_mul inFirst inSecond, back, shorter,
      List.append_assoc .., lesser.trans less, furtherReads⟩

/-- A state with one successor reads itself, if it is a letter. -/
theorem letter (apart : id ≠ final) (moves : automaton.successors id = .ok [next]) :
    automaton.Realizes final id next {automaton.word [id]} := by
  refine ⟨fun member => ?_, fun reads => ?_⟩
  · obtain rfl := Set.mem_singleton_iff.mp member
    have reads : automaton.Reads 1 id (automaton.word [id] ++ []) next :=
      .move ⟨_, moves, List.mem_singleton_self _⟩ (.here next)
    rw [List.append_nil] at reads
    exact ⟨1, reads⟩
  · cases reads with
    | here => exact absurd rfl apart
    | move taken rest =>
      obtain ⟨nexts, found, member⟩ := taken
      cases moves.symm.trans found
      obtain rfl := List.mem_singleton.mp member
      exact ⟨_, Set.mem_singleton _, _, _, rfl, Nat.le_succ _, rest⟩

end Realizes

theorem mem_sum_iff {languages : List (Language StateId)} {word : List StateId} :
    word ∈ languages.sum ↔ ∃ language ∈ languages, word ∈ language := by
  induction languages with
  | nil => simp [Language.notMem_zero]
  | cons first rest inductionHypothesis =>
    rw [List.sum_cons, Language.mem_add, inductionHypothesis]
    simp

namespace Realizes

variable {automaton : Automaton} {final id next : StateId} (apart : id ≠ final)
  (silent : automaton.word [id] = [])

include apart silent

/-- A state that is no letter chooses among the languages of its successors. -/
theorem choice (parts : List (StateId × Language StateId))
    (moves : automaton.successors id = .ok (parts.map Prod.fst))
    (realized : ∀ part ∈ parts, automaton.Realizes final part.1 next part.2) :
    automaton.Realizes final id next (parts.map Prod.snd).sum := by
  refine ⟨fun member => ?_, fun reads => ?_⟩
  · obtain ⟨language, inParts, inLanguage⟩ := mem_sum_iff.mp member
    obtain ⟨part, inList, rfl⟩ := List.mem_map.mp inParts
    obtain ⟨length, reads⟩ := (realized part inList).complete inLanguage
    have whole : automaton.Reads (length + 1) id _ next :=
      .move ⟨_, moves, List.mem_map_of_mem inList⟩ reads
    rw [silent, List.nil_append] at whole
    exact ⟨length + 1, whole⟩
  · cases reads with
    | here => exact absurd rfl apart
    | move taken rest =>
      obtain ⟨nexts, found, member⟩ := taken
      cases moves.symm.trans found
      obtain ⟨part, inList, rfl⟩ := List.mem_map.mp member
      obtain ⟨front, inLanguage, back, shorter, rfl, less, reads⟩ :=
        (realized part inList).sound rest
      have inSum := mem_sum_iff.mpr ⟨part.2, List.mem_map_of_mem inList, inLanguage⟩
      refine ⟨front, inSum, back, shorter, ?_, less.trans (Nat.le_succ _), reads⟩
      rw [silent, List.nil_append]

/-- A state that is no letter and has one successor passes on its language. -/
theorem step {middle : StateId} {language : Language StateId}
    (moves : automaton.successors id = .ok [middle])
    (realized : automaton.Realizes final middle next language) :
    automaton.Realizes final id next language := by
  have chosen := choice apart silent [(middle, language)] moves (by simpa using realized)
  simpa using chosen

/-- The language of an optional part, in whichever order the two ways are offered. -/
theorem optional {inside : StateId} {language : Language StateId}
    (moves : automaton.successors id = .ok [inside, next] ∨
      automaton.successors id = .ok [next, inside])
    (realized : automaton.Realizes final inside next language) :
    automaton.Realizes final id next (1 + language) := by
  have skipped := refl automaton final next
  rcases moves with moves | moves
  · have chosen := choice apart silent [(inside, language), (next, 1)] moves
      (by simpa using ⟨realized, skipped⟩)
    rwa [List.map_cons, List.map_singleton, List.sum_cons, List.sum_singleton, add_comm] at chosen
  · have chosen := choice apart silent [(next, 1), (inside, language)] moves
      (by simpa using ⟨skipped, realized⟩)
    rwa [List.map_cons, List.map_singleton, List.sum_cons, List.sum_singleton] at chosen

end Realizes

theorem append_mem_kstar {language : Language StateId} {front back : List StateId}
    (member : front ∈ language) (others : back ∈ language∗) : front ++ back ∈ language∗ := by
  rw [← Language.one_add_self_mul_kstar_eq_kstar]
  exact Or.inr (Language.append_mem_mul member others)

/-- A loop repeats the language of its body. -/
theorem Realizes.star {automaton : Automaton} {final loop body leave : StateId}
    {language : Language StateId} (apart : loop ≠ final) (silent : automaton.word [loop] = [])
    (moves : automaton.successors loop = .ok [body, leave] ∨
      automaton.successors loop = .ok [leave, body])
    (realized : automaton.Realizes final body loop language) :
    automaton.Realizes final loop leave language∗ := by
  have taken {next : StateId} : automaton.Moves loop next ↔ next = body ∨ next = leave := by
    rcases moves with moves | moves <;> simp [Moves, moves, or_comm]
  have entered {length : Nat} {word : List StateId} {next goal : StateId}
      (offered : next = body ∨ next = leave) (reads : automaton.Reads length next word goal) :
      automaton.Reads (length + 1) loop word goal := by
    have whole := Reads.move (taken.mpr offered) reads
    rwa [silent, List.nil_append] at whole
  constructor
  case complete =>
    intro word member
    obtain ⟨turns, rfl, each⟩ := Language.mem_kstar.mp member
    clear member
    induction turns with
    | nil => exact ⟨1, entered (Or.inr rfl) (.here leave)⟩
    | cons first rest inductionHypothesis =>
      obtain ⟨_, turn⟩ := realized.complete (each first List.mem_cons_self)
      obtain ⟨_, others⟩ := inductionHypothesis fun turn member =>
        each turn (List.mem_cons_of_mem _ member)
      exact (entered (Or.inl rfl) turn).append others
  case sound =>
    intro length
    -- Each turn uses up at least the move from the loop into its body.
    induction length using Nat.strong_induction_on with
    | _ length inductionHypothesis =>
      intro word reads
      cases reads with
      | here => exact absurd rfl apart
      | move moved rest =>
        rw [silent, List.nil_append]
        rcases taken.mp moved with rfl | rfl
        · obtain ⟨front, inLanguage, remaining, middling, rfl, less, again⟩ := realized.sound rest
          obtain ⟨turns, inStar, back, shorter, rfl, lesser, reads⟩ :=
            inductionHypothesis middling (Nat.lt_succ_of_le less) again
          exact ⟨front ++ turns, append_mem_kstar inLanguage inStar, back, shorter,
            List.append_assoc .., by omega, reads⟩
        · exact ⟨[], Language.nil_mem_kstar language, _, _, rfl, Nat.le_succ _, rest⟩

end Automaton

end PatternGraph
