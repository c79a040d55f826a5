/-
This file says what a reachability query finds. The search expands only states without an entry for
the goal; it succeeds at the goal and at states that are known to reach it, and turns away at states
with the entry no, among them those it has expanded before. So a query that is answered with yes has
found a path on which everything before the end was unknown when the query began: it `Leads` to the
goal. And if the answer is no, the states that were entered are closed under successors up to states
that had the entry no already, as `Searching` says for an empty stack of frames.

Neither half can be had if the memory becomes full and the default answer is the one in question,
hence the assumption `Avoids`.
-/

import Mathlib.Data.List.Chain
import Mathlib.Logic.Relation
import PatternGraph.Proofs.Reach.Memory

namespace PatternGraph

open Relation

namespace Automaton

/-- There is a path of successors. -/
def Reaches (automaton : Automaton) (id goal : StateId) : Prop :=
  ReflTransGen automaton.Moves id goal

/-- A move from an open state, where a state is open if it has the property. -/
def MovesFrom (automaton : Automaton) (isOpen : StateId → Prop) (id next : StateId) : Prop :=
  isOpen id ∧ automaton.Moves id next

/-- There is a path of successors on which every state but the last is open. -/
def OpenPath (automaton : Automaton) (isOpen : StateId → Prop) : StateId → StateId → Prop :=
  ReflTransGen (automaton.MovesFrom isOpen)

theorem OpenPath.reaches {automaton : Automaton} {isOpen : StateId → Prop} {id goal : StateId}
    (path : automaton.OpenPath isOpen id goal) : automaton.Reaches id goal :=
  ReflTransGen.mono (fun _ _ step => And.right step) _ _ path

/-- Every state that can be reached has successors. -/
def LinkedFrom (automaton : Automaton) (id : StateId) : Prop :=
  ∀ other, automaton.Reaches id other → ∃ nexts, automaton.successors other = .ok nexts

theorem LinkedFrom.moves {automaton : Automaton} {id next : StateId}
    (linked : automaton.LinkedFrom id) (moves : automaton.Moves id next) :
    automaton.LinkedFrom next :=
  fun other reaches => linked other (.head moves reaches)

theorem LinkedFrom.mem_ids {automaton : Automaton} {id : StateId}
    (linked : automaton.LinkedFrom id) : id ∈ automaton.ids := by
  obtain ⟨nexts, found⟩ := linked id .refl
  exact mem_ids_of_successors found

/-- Whether every state has successors, all of them states. -/
def allLinked (automaton : Automaton) : Bool :=
  automaton.ids.all fun id =>
    match automaton.successors id with
    | .ok nexts => nexts.all automaton.ids.contains
    | .error _ => false

theorem linkedFrom_of_allLinked {automaton : Automaton} (linked : automaton.allLinked)
    {id : StateId} (member : id ∈ automaton.ids) : automaton.LinkedFrom id := by
  have each {other : StateId} (inside : other ∈ automaton.ids) :
      ∃ nexts, automaton.successors other = .ok nexts ∧ ∀ next ∈ nexts, next ∈ automaton.ids := by
    have checked := List.all_eq_true.mp linked other inside
    split at checked
    · rename_i nexts found
      exact ⟨nexts, found, by simpa using checked⟩
    · cases checked
  intro other reaches
  have inside : other ∈ automaton.ids := by
    induction reaches with
    | refl => exact member
    | tail _ moves inductionHypothesis =>
      obtain ⟨nexts, found, all⟩ := each inductionHypothesis
      obtain ⟨offered, foundToo, isNext⟩ := moves
      cases found.symm.trans foundToo
      exact all _ isNext
  obtain ⟨nexts, found, -⟩ := each inside
  exact ⟨nexts, found⟩

end Automaton

namespace Checker

/-- There is a path to the goal, or to a state that is known to reach it, and no other state of the
path has an entry. -/
inductive Leads (checker : Checker) (automaton : Automaton) (goal : StateId) : StateId → Prop
  | here : Leads checker automaton goal goal
  | known {id : StateId} (yes : checker.knownAnswer? id goal = some true) :
    Leads checker automaton goal id
  | move {id next : StateId} (unknown : checker.knownAnswer? id goal = none)
    (moves : automaton.Moves id next) (rest : Leads checker automaton goal next) :
    Leads checker automaton goal id

/-! ### The steps of a search -/

section

variable {automaton : Automaton} {goal : StateId} {checker : Checker} {state successor : StateId}
  {remaining : List StateId} {outer : List Frame}

theorem descend_exhausted :
    descend automaton goal checker (⟨state, []⟩ :: outer) =
      descend automaton goal checker outer := by
  rw [descend]

theorem descend_yes (consulted : (checker.consult successor goal).answer? = some true) :
    descend automaton goal checker (⟨state, successor :: remaining⟩ :: outer) =
      ⟨.ok true, (checker.consult successor goal).checker.settle goal
        (state :: outer.map Frame.state), (checker.consult successor goal).records⟩ := by
  rw [descend]
  dsimp only
  split
  · rfl
  · rename_i other
    cases consulted.symm.trans other
  · rename_i other
    cases consulted.symm.trans other

theorem descend_no (consulted : (checker.consult successor goal).answer? = some false) :
    descend automaton goal checker (⟨state, successor :: remaining⟩ :: outer) =
      (descend automaton goal (checker.consult successor goal).checker
        (⟨state, remaining⟩ :: outer)).after (checker.consult successor goal).records := by
  rw [descend]
  dsimp only
  split
  · rename_i other
    cases consulted.symm.trans other
  · rfl
  · rename_i other
    cases consulted.symm.trans other

theorem descend_enter (unanswered : (checker.consult successor goal).answer? = none)
    {nexts : List StateId} (found : automaton.successors successor = .ok nexts) :
    descend automaton goal checker (⟨state, successor :: remaining⟩ :: outer) =
      descend automaton goal (checker.mark successor goal)
        (⟨successor, nexts⟩ :: ⟨state, remaining⟩ :: outer) := by
  rw [descend]
  dsimp only
  split
  · rename_i other
    cases unanswered.symm.trans other
  · rename_i other
    cases unanswered.symm.trans other
  · split
    · rename_i other
      cases found.symm.trans other
    · rename_i other
      cases found.symm.trans other
      rfl

end

/-! ### What holds during a search -/

/-- What holds of the checker and the frames during a query that began with the checker `before`. -/
structure Searching (automaton : Automaton) (goal : StateId) (before checker : Checker)
    (frames : List Frame) : Prop where
  limit : checker.limit = before.limit
  defaultAnswer : checker.defaultAnswer = before.defaultAnswer
  roomy : before.Roomy automaton goal → checker.Roomy automaton goal
  tidy : before.Tidy automaton → goal ∈ automaton.ids → checker.Tidy automaton
  others {start other : StateId} : other ≠ goal →
    checker.knownAnswer? start other = before.knownAnswer? start other
  kept {id : StateId} {answer : Bool} : before.knownAnswer? id goal = some answer →
    checker.knownAnswer? id goal = some answer
  /-- Every new entry is no. -/
  refused {id : StateId} {answer : Bool} : before.knownAnswer? id goal = none →
    checker.knownAnswer? id goal = some answer → answer = false
  framed {frame : Frame} : frame ∈ frames → before.knownAnswer? frame.state goal = none ∧
    ∃ nexts, automaton.successors frame.state = .ok nexts ∧ frame.remaining ⊆ nexts
  entered {frame : Frame} : frame ∈ frames →
    checker.knownAnswer? frame.state goal = some false
  chained : (frames.map Frame.state).IsChain fun inner outer => automaton.Moves outer inner
  /-- The successors of a new entry wait in a frame or have the entry no as well. -/
  closed {id : StateId} : before.Avoids automaton goal false →
    before.knownAnswer? id goal = none → checker.knownAnswer? id goal = some false →
      id ≠ goal ∧ ∃ nexts, automaton.successors id = .ok nexts ∧ ∀ next ∈ nexts,
        (next ≠ goal ∧ checker.knownAnswer? next goal = some false) ∨
          ∃ frame ∈ frames, frame.state = id ∧ next ∈ frame.remaining

namespace Searching

variable {automaton : Automaton} {goal : StateId} {before checker : Checker}

/-- Before anything is done. -/
theorem refl (automaton : Automaton) (goal : StateId) (checker : Checker) :
    Searching automaton goal checker checker [] where
  limit := rfl
  defaultAnswer := rfl
  roomy := id
  tidy tidy _ := tidy
  others _ := rfl
  kept := id
  refused unknown known := by rw [unknown] at known; cases known
  framed member := absurd member List.not_mem_nil
  entered member := absurd member List.not_mem_nil
  chained := .nil
  closed _ unknown known := by rw [unknown] at known; cases known

theorem avoids {frames : List Frame} (searching : Searching automaton goal before checker frames)
    {answer : Bool} (avoids : before.Avoids automaton goal answer) :
    checker.Avoids automaton goal answer :=
  avoids.imp (searching.defaultAnswer ▸ ·) searching.roomy

/-- A consultation changes nothing that matters. -/
theorem consult {frames : List Frame} (searching : Searching automaton goal before checker frames)
    (asked : StateId) :
    Searching automaton goal before (checker.consult asked goal).checker frames := by
  have memory := consult_memory checker asked goal
  obtain ⟨limit, defaultAnswer⟩ := consult_settings checker asked goal
  have same (start other : StateId) :
      (checker.consult asked goal).checker.knownAnswer? start other =
        checker.knownAnswer? start other := knownAnswer?_eq_of_memory memory start other
  have pairs : (checker.consult asked goal).checker.pairs = checker.pairs := by
    rw [Checker.pairs, memory]
    rfl
  exact
    { limit := limit.trans searching.limit
      defaultAnswer := defaultAnswer.trans searching.defaultAnswer
      roomy := fun roomy => (searching.roomy roomy).of_memory memory limit
      tidy := fun tidy member => by
        obtain ⟨nodup, inside⟩ := searching.tidy tidy member
        exact ⟨pairs ▸ nodup, pairs ▸ inside⟩
      others := fun otherGoal => (same _ _).trans (searching.others otherGoal)
      kept := fun was => (same _ _).trans (searching.kept was)
      refused := fun was known => searching.refused was ((same _ _).symm.trans known)
      framed := searching.framed
      entered := fun member => (same _ _).trans (searching.entered member)
      chained := searching.chained
      closed := fun avoids was known => by
        simp only [same] at known ⊢
        exact searching.closed avoids was known }

/-- A state whose successors are exhausted is left. -/
theorem leave {state : StateId} {outer : List Frame}
    (searching : Searching automaton goal before checker (⟨state, []⟩ :: outer)) :
    Searching automaton goal before checker outer :=
  { searching with
    framed := fun member => searching.framed (List.mem_cons_of_mem _ member)
    entered := fun member => searching.entered (List.mem_cons_of_mem _ member)
    chained := searching.chained.tail
    closed := fun avoids unknown known => by
      obtain ⟨apart, nexts, found, each⟩ := searching.closed avoids unknown known
      refine ⟨apart, nexts, found, fun next member => (each next member).imp_right ?_⟩
      rintro ⟨frame, inFrames, same, waiting⟩
      rcases List.mem_cons.mp inFrames with rfl | inOuter
      · cases waiting
      · exact ⟨frame, inOuter, same, waiting⟩ }

/-- A successor that waits in some frame is passed over once it has the entry no. -/
theorem skip {state successor : StateId} {remaining : List StateId} (front : List Frame)
    {outer : List Frame}
    (searching : Searching automaton goal before checker
      (front ++ ⟨state, successor :: remaining⟩ :: outer))
    (refuses : before.Avoids automaton goal false →
      successor ≠ goal ∧ checker.knownAnswer? successor goal = some false) :
    Searching automaton goal before checker (front ++ ⟨state, remaining⟩ :: outer) := by
  have older (frame : Frame) (member : frame ∈ front ++ ⟨state, remaining⟩ :: outer) :
      ∃ old ∈ front ++ ⟨state, successor :: remaining⟩ :: outer,
        old.state = frame.state ∧ frame.remaining ⊆ old.remaining := by
    rcases List.mem_append.mp member with inFront | behind
    · exact ⟨frame, List.mem_append_left _ inFront, rfl, List.Subset.refl _⟩
    · rcases List.mem_cons.mp behind with rfl | inOuter
      · exact ⟨_, List.mem_append_right _ List.mem_cons_self, rfl, List.subset_cons_self ..⟩
      · exact ⟨frame, List.mem_append_right _ (List.mem_cons_of_mem _ inOuter), rfl,
          List.Subset.refl _⟩
  have newer (old : Frame) (member : old ∈ front ++ ⟨state, successor :: remaining⟩ :: outer)
      (next : StateId) (waiting : next ∈ old.remaining) (other : next ≠ successor) :
      ∃ frame ∈ front ++ ⟨state, remaining⟩ :: outer,
        frame.state = old.state ∧ next ∈ frame.remaining := by
    rcases List.mem_append.mp member with inFront | behind
    · exact ⟨old, List.mem_append_left _ inFront, rfl, waiting⟩
    · rcases List.mem_cons.mp behind with rfl | inOuter
      · exact ⟨_, List.mem_append_right _ List.mem_cons_self, rfl,
          (List.mem_cons.mp waiting).resolve_left other⟩
      · exact ⟨old, List.mem_append_right _ (List.mem_cons_of_mem _ inOuter), rfl, waiting⟩
  exact
    { searching with
      framed := fun {frame} member => by
        obtain ⟨old, inFrames, same, fewer⟩ := older frame member
        obtain ⟨unknown, nexts, found, inside⟩ := searching.framed inFrames
        rw [same] at unknown found
        exact ⟨unknown, nexts, found, List.Subset.trans fewer inside⟩
      entered := fun {frame} member => by
        obtain ⟨old, inFrames, same, -⟩ := older frame member
        rw [← same]
        exact searching.entered inFrames
      chained := by simpa using searching.chained
      closed := fun avoids unknown known => by
        obtain ⟨apart, nexts, found, each⟩ := searching.closed avoids unknown known
        refine ⟨apart, nexts, found, fun next member => ?_⟩
        by_cases passed : next = successor
        · exact Or.inl (passed ▸ refuses avoids)
        · refine (each next member).imp_right ?_
          rintro ⟨old, inFrames, same, waiting⟩
          obtain ⟨frame, inShorter, sameState, stillWaiting⟩ :=
            newer old inFrames next waiting passed
          exact ⟨frame, inShorter, sameState.trans same, stillWaiting⟩ }

/-- A state without entry is entered into the memory and expanded. -/
theorem enter {frames : List Frame} (searching : Searching automaton goal before checker frames)
    {successor : StateId} {nexts : List StateId} (apart : successor ≠ goal)
    (unknown : checker.knownAnswer? successor goal = none)
    (found : automaton.successors successor = .ok nexts)
    (moves : ∀ state ∈ (frames.map Frame.state).head?, automaton.Moves state successor) :
    Searching automaton goal before (checker.mark successor goal)
      (⟨successor, nexts⟩ :: frames) := by
  have member : successor ∈ automaton.ids := Automaton.mem_ids_of_successors found
  have wasUnknown : before.knownAnswer? successor goal = none := by
    cases was : before.knownAnswer? successor goal with
    | none => rfl
    | some answer => rw [searching.kept was] at unknown; cases unknown
  have marked : (checker.mark successor goal).knownAnswer? successor goal = some false := by
    rw [knownAnswer?_mark, if_pos ⟨rfl, rfl⟩]
  have elsewhere {id : StateId} (other : id ≠ successor) :
      (checker.mark successor goal).knownAnswer? id goal = checker.knownAnswer? id goal := by
    rw [knownAnswer?_mark, if_neg fun same => other same.1]
  exact
    { limit := searching.limit
      defaultAnswer := searching.defaultAnswer
      roomy := fun roomy => (searching.roomy roomy).mark member unknown
      tidy := fun tidy goalMember => by
        obtain ⟨nodup, inside⟩ := searching.tidy tidy goalMember
        rw [knownAnswer?_eq_none_iff] at unknown
        refine ⟨?_, fun pair inPairs => ?_⟩
        · rw [pairs_mark]
          exact List.nodup_cons.mpr ⟨unknown, nodup⟩
        rw [pairs_mark] at inPairs
        rcases List.mem_cons.mp inPairs with rfl | old
        · exact ⟨member, goalMember⟩
        · exact inside pair old
      others := fun {start other} otherGoal => by
        rw [knownAnswer?_mark, if_neg fun same => otherGoal same.2]
        exact searching.others otherGoal
      kept := fun {id answer} was => by
        have other : id ≠ successor := by
          rintro rfl
          rw [wasUnknown] at was
          cases was
        rw [elsewhere other]
        exact searching.kept was
      refused := fun {id answer} was known => by
        by_cases same : id = successor
        · subst same
          exact (Option.some.inj (marked.symm.trans known)).symm
        · rw [elsewhere same] at known
          exact searching.refused was known
      framed := fun {frame} inFrames => by
        rcases List.mem_cons.mp inFrames with rfl | old
        · exact ⟨wasUnknown, nexts, found, fun _ waiting => waiting⟩
        · exact searching.framed old
      entered := fun {frame} inFrames => by
        rcases List.mem_cons.mp inFrames with rfl | old
        · exact marked
        · by_cases same : frame.state = successor
          · rw [same, marked]
          · rw [elsewhere same, searching.entered old]
      chained := by
        have chained := searching.chained
        rw [List.map_cons]
        cases frames with
        | nil => exact .singleton _
        | cons frame outer => exact .cons_cons (moves frame.state rfl) chained
      closed := fun {id} avoids was known => by
        by_cases same : id = successor
        · subst same
          refine ⟨apart, nexts, found, fun next waiting => Or.inr ?_⟩
          exact ⟨_, List.mem_cons_self, rfl, waiting⟩
        · rw [elsewhere same] at known
          obtain ⟨apartToo, others, foundToo, each⟩ := searching.closed avoids was known
          refine ⟨apartToo, others, foundToo, fun next inNexts => ?_⟩
          rcases each next inNexts with ⟨nextApart, passed⟩ | ⟨frame, inFrames, here, waiting⟩
          · refine Or.inl ⟨nextApart, ?_⟩
            by_cases again : next = successor
            · rw [again, marked]
            · rw [elsewhere again, passed]
          · exact Or.inr ⟨frame, List.mem_cons_of_mem _ inFrames, here, waiting⟩ }

/-- What the innermost state leads to, all states of the frames lead to. -/
theorem leads {frames : List Frame} (searching : Searching automaton goal before checker frames)
    (innermost : ∀ state ∈ (frames.map Frame.state).head?, before.Leads automaton goal state) :
    ∀ state ∈ frames.map Frame.state, before.Leads automaton goal state := by
  have chained := searching.chained
  have unknown : ∀ state ∈ frames.map Frame.state, before.knownAnswer? state goal = none := by
    rw [List.forall_mem_map]
    exact fun frame member => (searching.framed member).1
  clear searching
  generalize frames.map Frame.state = states at innermost chained unknown ⊢
  induction states with
  | nil => simp
  | cons inner outer inductionHypothesis =>
    have leadsInner := innermost inner rfl
    refine List.forall_mem_cons.mpr ⟨leadsInner, inductionHypothesis (fun state isHead => ?_)
      chained.tail fun state member => unknown state (List.mem_cons_of_mem _ member)⟩
    cases outer with
    | nil => cases isHead
    | cons next further =>
      obtain rfl : next = state := Option.some.inj isHead
      exact .move (unknown next (List.mem_cons_of_mem _ List.mem_cons_self))
        (List.isChain_cons_cons.mp chained).1 leadsInner

end Searching

/-- What a search comes to that goes on with the given checker and frames. -/
structure Concluded (automaton : Automaton) (goal : StateId) (before checker : Checker)
    (frames : List Frame) (search : Search) : Prop where
  limit : search.checker.limit = before.limit
  defaultAnswer : search.checker.defaultAnswer = before.defaultAnswer
  tidy : before.Tidy automaton → goal ∈ automaton.ids → search.checker.Tidy automaton
  others {start other : StateId} : other ≠ goal →
    search.checker.knownAnswer? start other = before.knownAnswer? start other
  kept {id : StateId} {answer : Bool} : before.knownAnswer? id goal = some answer →
    search.checker.knownAnswer? id goal = some answer
  remembered {id : StateId} : checker.knownAnswer? id goal ≠ none →
    search.checker.knownAnswer? id goal ≠ none
  answered : ∃ answer, search.answer = .ok answer
  /-- A new entry yes stands for a path, and so does the answer yes. -/
  found {id : StateId} : before.Avoids automaton goal true →
    before.knownAnswer? id goal = none → search.checker.knownAnswer? id goal = some true →
      before.Leads automaton goal id
  /-- The state at which the query began has the answer as its entry. -/
  settled {start : StateId} {answer : Bool} : search.answer = .ok answer →
    start ∈ (frames.map Frame.state).getLast? →
      search.checker.knownAnswer? start goal = some answer
  exhausted : search.answer = .ok false → Searching automaton goal before search.checker []

section

variable {automaton : Automaton} {goal : StateId} {before checker : Checker}

/-- The search ends with no if there is nothing left to expand. -/
theorem Searching.conclude_no (searching : Searching automaton goal before checker []) :
    Concluded automaton goal before checker [] ⟨.ok false, checker, []⟩ where
  limit := searching.limit
  defaultAnswer := searching.defaultAnswer
  tidy := searching.tidy
  others := searching.others
  kept := searching.kept
  remembered := id
  answered := ⟨false, rfl⟩
  found _ was known := by cases searching.refused was known
  settled _ isRoot := by cases isRoot
  exhausted _ := searching

/-- The search ends with yes if the innermost state has a successor that leads to the goal. -/
theorem Searching.conclude_yes {frames : List Frame}
    (searching : Searching automaton goal before checker frames)
    (innermost : before.Avoids automaton goal true →
      ∀ state ∈ (frames.map Frame.state).head?, before.Leads automaton goal state)
    (records : List LogRecord) :
    Concluded automaton goal before checker frames
      ⟨.ok true, checker.settle goal (frames.map Frame.state), records⟩ := by
  have unsettled {id : StateId} {answer : Bool} (was : before.knownAnswer? id goal = some answer) :
      id ∉ frames.map Frame.state := by
    intro member
    obtain ⟨frame, inFrames, rfl⟩ := List.mem_map.mp member
    rw [(searching.framed inFrames).1] at was
    cases was
  refine
    { limit := searching.limit
      defaultAnswer := searching.defaultAnswer
      tidy := fun tidy member => ?tidy
      others := fun otherGoal => ?others
      kept := fun was => ?kept
      remembered := fun known => ?remembered
      answered := ⟨true, rfl⟩
      found := fun avoids was known => ?found
      settled := fun answered isRoot => ?settled
      exhausted := fun answered => by cases answered }
  case tidy =>
    obtain ⟨nodup, inside⟩ := searching.tidy tidy member
    rw [← pairs_settle checker goal (frames.map Frame.state)] at nodup inside
    exact ⟨nodup, inside⟩
  case others =>
    rw [knownAnswer?_settle, if_neg fun same => otherGoal same.1]
    exact searching.others otherGoal
  case kept =>
    rw [knownAnswer?_settle, if_neg fun inside => unsettled was inside.2]
    exact searching.kept was
  case remembered =>
    rw [knownAnswer?_settle]
    split
    · simpa using known
    · exact known
  case found =>
    rw [knownAnswer?_settle] at known
    split at known
    · rename_i inside
      exact searching.leads (innermost avoids) _ inside.2
    · cases searching.refused was known
  case settled =>
    cases answered
    have inside := List.mem_of_getLast? isRoot
    obtain ⟨frame, inFrames, rfl⟩ := List.mem_map.mp inside
    rw [knownAnswer?_settle, if_pos ⟨rfl, inside⟩, searching.entered inFrames]
    rfl

/-- A search comes to what it goes on to, if that forgets nothing and began at the same state. -/
theorem Concluded.earlier {later : Checker} {frames goesOn : List Frame} {search : Search}
    (concluded : Concluded automaton goal before later goesOn search)
    (remembered : ∀ {id}, checker.knownAnswer? id goal ≠ none → later.knownAnswer? id goal ≠ none)
    (sameRoot : (frames.map Frame.state).getLast? = (goesOn.map Frame.state).getLast?) :
    Concluded automaton goal before checker frames search :=
  { concluded with
    remembered := fun known => concluded.remembered (remembered known)
    settled := fun answered isRoot => concluded.settled answered (sameRoot ▸ isRoot) }

theorem Concluded.after {frames : List Frame} {search : Search}
    (concluded : Concluded automaton goal before checker frames search)
    (records : List LogRecord) :
    Concluded automaton goal before checker frames (search.after records) :=
  { concluded with }

/-- The next successor of the innermost state. -/
theorem Searching.moves {state successor : StateId} {remaining : List StateId}
    {outer : List Frame}
    (searching : Searching automaton goal before checker
      (⟨state, successor :: remaining⟩ :: outer)) : automaton.Moves state successor := by
  obtain ⟨-, nexts, found, inside⟩ := searching.framed List.mem_cons_self
  exact ⟨nexts, found, inside List.mem_cons_self⟩

/-- A successor that is answered with yes leads to the goal. -/
theorem Searching.leads_of_consult {frames : List Frame}
    (searching : Searching automaton goal before checker frames) {successor : StateId}
    (member : successor ∈ automaton.ids) (avoids : before.Avoids automaton goal true)
    (answered : (checker.consult successor goal).answer? = some true) :
    before.Leads automaton goal successor := by
  rcases (searching.avoids avoids).consult member answered with ⟨rfl, -⟩ | ⟨-, known⟩
  · exact .here
  · cases was : before.knownAnswer? successor goal with
    | none => cases searching.refused was known
    | some answer =>
      cases (searching.kept was).symm.trans known
      exact .known was

/-- A search that is linked comes to a conclusion. -/
theorem concluded_descend {frames : List Frame}
    (searching : Searching automaton goal before checker frames)
    (linked : ∀ state ∈ frames.map Frame.state, automaton.LinkedFrom state) :
    Concluded automaton goal before checker frames (descend automaton goal checker frames) := by
  induction checker, frames using descend.induct automaton goal with
  | case1 checker =>
    rw [descend]
    exact searching.conclude_no
  | case2 checker state outer inductionHypothesis =>
    rw [descend_exhausted]
    have concluded := inductionHypothesis searching.leave fun other member =>
      linked other (List.mem_cons_of_mem _ member)
    cases outer with
    | nil =>
      refine { concluded with settled := fun {start answer} answered isRoot => ?_ }
      rw [descend] at answered ⊢
      cases answered
      obtain rfl : state = start := Option.some.inj isRoot
      have held := searching.entered List.mem_cons_self
      exact held
    | cons frame further => exact concluded.earlier id rfl
  | case3 checker state successor remaining outer consulted answered =>
    rw [descend_yes answered]
    have moves := searching.moves
    have member := ((linked _ List.mem_cons_self).moves moves).mem_ids
    have concluded := (searching.consult successor).conclude_yes (fun avoids top isTop => ?_)
      (checker.consult successor goal).records
    · refine concluded.earlier (fun known => ?_) rfl
      rwa [knownAnswer?_eq_of_memory (consult_memory checker successor goal)]
    · obtain rfl : state = top := Option.some.inj isTop
      exact .move (searching.framed List.mem_cons_self).1 moves
        (searching.leads_of_consult member avoids answered)
  | case4 checker state successor remaining outer consulted answered inductionHypothesis =>
    rw [descend_no answered]
    have member := ((linked _ List.mem_cons_self).moves searching.moves).mem_ids
    have same := knownAnswer?_eq_of_memory (consult_memory checker successor goal)
    have skipped := (searching.consult successor).skip [] fun avoids => by
      rcases (searching.avoids avoids).consult member answered with ⟨-, no⟩ | ⟨apart, known⟩
      · cases no
      · exact ⟨apart, (same _ _).trans known⟩
    refine Concluded.after ?_ _
    refine (inductionHypothesis skipped linked).earlier (fun known => ?_) rfl
    rwa [same]
  | case5 checker state successor remaining outer consulted unanswered fault failed =>
    have moves := searching.moves
    obtain ⟨nexts, found⟩ := ((linked _ List.mem_cons_self).moves moves) _ .refl
    cases failed.symm.trans found
  | case6 checker state successor remaining outer consulted unanswered nexts found
      inductionHypothesis =>
    rw [descend_enter unanswered found]
    have moves := searching.moves
    obtain ⟨apart, unknown⟩ := knownAnswer?_of_unanswered unanswered
    have marked : (checker.mark successor goal).knownAnswer? successor goal = some false := by
      rw [knownAnswer?_mark, if_pos ⟨rfl, rfl⟩]
    have entered := (searching.enter apart unknown found fun top isTop => by
      obtain rfl : state = top := Option.some.inj isTop
      exact moves).skip [⟨successor, nexts⟩] fun _ => ⟨apart, marked⟩
    refine (inductionHypothesis entered ?_).earlier (fun {id} known => ?_) ?_
    · exact List.forall_mem_cons.mpr ⟨(linked _ List.mem_cons_self).moves moves, linked⟩
    · rw [knownAnswer?_mark]
      split
      · simp
      · exact known
    · simp

end

/-! ### Queries -/

section

variable {automaton : Automaton} {checker : Checker} {start goal : StateId}

theorem canReach_of_consult {answer : Bool}
    (consulted : (checker.consult start goal).answer? = some answer) :
    checker.canReach automaton start goal =
      ⟨.ok answer, (checker.consult start goal).checker, (checker.consult start goal).records⟩ := by
  simp only [canReach, consulted]

theorem canReach_of_unanswered (unanswered : (checker.consult start goal).answer? = none)
    {nexts : List StateId} (found : automaton.successors start = .ok nexts) :
    checker.canReach automaton start goal =
      descend automaton goal (checker.mark start goal) [⟨start, nexts⟩] := by
  simp only [canReach, unanswered, found]

variable (linked : automaton.LinkedFrom start)

include linked

/-- A query that has to search is concluded, and its pair has the answer as its entry. -/
theorem concluded_of_unanswered (unanswered : (checker.consult start goal).answer? = none) :
    ∃ nexts, Concluded automaton goal checker (checker.mark start goal) [⟨start, nexts⟩]
      (checker.canReach automaton start goal) := by
  obtain ⟨nexts, found⟩ := linked start .refl
  obtain ⟨apart, unknown⟩ := knownAnswer?_of_unanswered unanswered
  refine ⟨nexts, ?_⟩
  rw [canReach_of_unanswered unanswered found]
  refine concluded_descend ?_ (by simpa using linked)
  exact (Searching.refl automaton goal checker).enter apart unknown found (by simp)

/-- Every query is concluded. -/
theorem concluded_canReach :
    Concluded automaton goal checker checker [] (checker.canReach automaton start goal) := by
  cases consulted : (checker.consult start goal).answer? with
  | none =>
    obtain ⟨nexts, concluded⟩ := concluded_of_unanswered linked consulted
    refine { concluded with remembered := fun {id} known => concluded.remembered ?_, settled := ?_ }
    · rw [knownAnswer?_mark]
      split
      · simp
      · exact known
    · intro root answer _ isRoot
      cases isRoot
  | some answer =>
    have searching := (Searching.refl automaton goal checker).consult start
    have concluded := searching.conclude_no
    rw [canReach_of_consult consulted]
    refine
      { concluded with
        remembered := fun known => ?_
        answered := ⟨answer, rfl⟩
        settled := fun _ isRoot => by cases isRoot
        exhausted := fun _ => searching }
    rwa [knownAnswer?_eq_of_memory (consult_memory checker start goal)]

/-- The answer yes is found on a path. -/
theorem leads_of_canReach (avoids : checker.Avoids automaton goal true)
    (answered : (checker.canReach automaton start goal).answer = .ok true) :
    checker.Leads automaton goal start := by
  cases consulted : (checker.consult start goal).answer? with
  | none =>
    obtain ⟨nexts, concluded⟩ := concluded_of_unanswered linked consulted
    exact concluded.found avoids (knownAnswer?_of_unanswered consulted).2
      (concluded.settled answered rfl)
  | some answer =>
    rw [canReach_of_consult consulted] at answered
    cases answered
    exact (Searching.refl automaton goal checker).leads_of_consult linked.mem_ids avoids consulted

omit linked in
theorem not_leads_of_no {id : StateId} (apart : id ≠ goal)
    (known : checker.knownAnswer? id goal = some false) : ¬ checker.Leads automaton goal id := by
  intro leads
  cases leads with
  | here => exact apart rfl
  | known yes => cases known.symm.trans yes
  | move unknown moves rest => cases known.symm.trans unknown

omit linked in
/-- Nothing that was entered in a search that ended with no leads to the goal. -/
theorem Searching.not_leads {after : Checker}
    (searching : Searching automaton goal checker after [])
    (avoids : checker.Avoids automaton goal false) {id : StateId}
    (unknown : checker.knownAnswer? id goal = none)
    (entered : after.knownAnswer? id goal = some false) : ¬ checker.Leads automaton goal id := by
  intro leads
  induction leads with
  | here => exact (searching.closed avoids unknown entered).1 rfl
  | known yes => cases unknown.symm.trans yes
  | @move id next _ moves rest inductionHypothesis =>
    obtain ⟨-, nexts, found, each⟩ := searching.closed avoids unknown entered
    obtain ⟨offered, foundToo, member⟩ := moves
    cases found.symm.trans foundToo
    rcases each next member with ⟨apart, no⟩ | ⟨frame, inFrames, -⟩
    · cases was : checker.knownAnswer? next goal with
      | none => exact inductionHypothesis was no
      | some answer =>
        cases (searching.kept was).symm.trans no
        exact not_leads_of_no apart was rest
    · cases inFrames

/-- The answer no rules every such path out. -/
theorem not_leads_of_canReach (avoids : checker.Avoids automaton goal false)
    (answered : (checker.canReach automaton start goal).answer = .ok false) :
    ¬ checker.Leads automaton goal start := by
  cases consulted : (checker.consult start goal).answer? with
  | none =>
    obtain ⟨nexts, concluded⟩ := concluded_of_unanswered linked consulted
    exact (concluded.exhausted answered).not_leads avoids (knownAnswer?_of_unanswered consulted).2
      (concluded.settled answered rfl)
  | some answer =>
    rw [canReach_of_consult consulted] at answered
    cases answered
    rcases avoids.consult linked.mem_ids consulted with ⟨-, no⟩ | ⟨apart, known⟩
    · cases no
    · exact not_leads_of_no apart known

/-- With room for the query, the answer says whether such a path exists. -/
theorem canReach_eq_ok_iff_leads (roomy : checker.Roomy automaton goal) :
    ∃ answer, (checker.canReach automaton start goal).answer = .ok answer ∧
      (answer = true ↔ checker.Leads automaton goal start) := by
  have concluded : Concluded automaton goal checker checker []
      (checker.canReach automaton start goal) := concluded_canReach linked
  obtain ⟨answer, answered⟩ := concluded.answered
  refine ⟨answer, answered, ?_⟩
  cases answer with
  | true => exact ⟨fun _ => leads_of_canReach linked (Or.inr roomy) answered, fun _ => rfl⟩
  | false =>
    refine ⟨fun yes => (Bool.false_ne_true yes).elim, fun leads => ?_⟩
    exact absurd leads (not_leads_of_canReach linked (Or.inr roomy) answered)

end

end Checker

end PatternGraph
