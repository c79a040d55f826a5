/-
This file proves that linking ends on every arena, well formed or not: nodes may share their
children, a child may be glue or no state at all, and a node may be its own descendant.

`linkAll` keeps the links that are still to be done in a list. Here the same work is told as it is
nested: the call for a node stores a continuation and makes a call for each child that is linked
together with the node, one after the other and up to the first that fails. Nothing in that says
that it ever ends, so `linkNested` limits how many calls there may be inside each other, and tells
nothing where there are more.

What ends the calls is that each one that makes further calls has stored a continuation before, in a
node that had none. The arena grows all the while, but by glue, which does not count. So the calls
inside a call find fewer unlinked nodes than it found itself, and a limit above the number of
unlinked nodes is never reached. Below the limit the nested calls do what linking does, deed by
deed, and the journal of linking tells what that amounts to.
-/

import PatternGraph.Proofs.Linking.Journal

namespace PatternGraph

/-! ### Nested calls -/

/-- What came of some work, and all that was done. -/
structure Course where
  outcome : Outcome Unit
  deeds : List Deed

namespace Course

/-- Some work and then more. -/
def followedBy (first second : Course) : Course where
  outcome := { second.outcome with records := first.outcome.records ++ second.outcome.records }
  deeds := first.deeds ++ second.deeds

/-- The same work after something that was done and recorded. -/
def preceded (course : Course) (record : LogRecord) (deeds : List Deed) : Course :=
  ⟨course.outcome.preceded record, deeds ++ course.deeds⟩

theorem preceded_followedBy (first second : Course) (record : LogRecord) (deeds : List Deed) :
    (first.preceded record deeds).followedBy second =
      (first.followedBy second).preceded record deeds := by
  simp [preceded, followedBy, Outcome.preceded]

end Course

namespace Automaton

/-- Makes a call for each link of a row, one after the other and up to the first that fails. -/
def inTurn (call : Automaton → Link → Option Course) : Automaton → List Link → Option Course
  | automaton, [] => some ⟨.success automaton (), []⟩
  | automaton, link :: rest =>
    (call automaton link).bind fun first =>
      match first.outcome.answer with
      | .error _ => some first
      | .ok () => (inTurn call first.outcome.automaton rest).map first.followedBy

/-- The call for a link, with the calls for the children inside it. Nothing is told if there are
more than `depth` calls inside each other. -/
def linkNested : Nat → Automaton → Link → Option Course
  | 0, _, _ => none
  | depth + 1, automaton, link =>
    match automaton.linkable link.node with
    | .error fault => some ⟨.failure automaton fault, [.call link]⟩
    | .ok treeNode =>
      let linked := automaton.linkNode link treeNode.node
      (inTurn (linkNested depth) linked.1 linked.2).map fun inside =>
        inside.preceded (linkRecord link treeNode.node)
          (.call link :: automaton.ownDeeds link treeNode.node)

/-- Linking as it works through its list. -/
def course (automaton : Automaton) (links : List Link) : Course :=
  ⟨automaton.linkAll links, automaton.journal links⟩

theorem course_nil (automaton : Automaton) : automaton.course [] = ⟨.success automaton (), []⟩ := by
  rw [course, linkAll, journal_nil]

theorem course_cons_error {automaton : Automaton} {link : Link} {fault : Fault}
    (refused : automaton.linkable link.node = .error fault) (pending : List Link) :
    automaton.course (link :: pending) = ⟨.failure automaton fault, [.call link]⟩ := by
  rw [course, linkAll_cons_error refused, journal_cons_error refused]

theorem course_cons_ok {automaton : Automaton} {link : Link} {treeNode : TreeNode}
    (linkable : automaton.linkable link.node = .ok treeNode) (pending : List Link) :
    automaton.course (link :: pending) =
      ((automaton.linkNode link treeNode.node).1.course
        ((automaton.linkNode link treeNode.node).2 ++ pending)).preceded
          (linkRecord link treeNode.node)
          (.call link :: automaton.ownDeeds link treeNode.node) := by
  rw [course, linkAll_cons_ok linkable, journal_cons_ok linkable]
  rfl

/-- What is pending behind links that fail is not taken up. -/
theorem course_append_of_error {automaton : Automaton} {links : List Link} {fault : Fault}
    (failed : (automaton.linkAll links).answer = .error fault) (pending : List Link) :
    automaton.course (links ++ pending) = automaton.course links := by
  induction automaton, links using row_induction with
  | nil automaton =>
    rw [linkAll] at failed
    cases failed
  | refused automaton link rest fault refused =>
    rw [List.cons_append, course_cons_error refused, course_cons_error refused]
  | linked automaton link rest treeNode linkable inductionHypothesis =>
    rw [linkAll_cons_ok linkable] at failed
    rw [List.cons_append, course_cons_ok linkable, course_cons_ok linkable, ← List.append_assoc,
      inductionHypothesis failed]

/-- What is pending behind other links is done on the arena that these leave. -/
theorem course_append_of_ok {automaton : Automaton} {links : List Link}
    (succeeded : (automaton.linkAll links).answer = .ok ()) (pending : List Link) :
    automaton.course (links ++ pending) =
      (automaton.course links).followedBy ((automaton.linkAll links).automaton.course pending) := by
  induction automaton, links using row_induction with
  | nil automaton =>
    rw [course_nil, linkAll]
    rfl
  | refused automaton link rest fault refused =>
    rw [linkAll_cons_error refused] at succeeded
    cases succeeded
  | linked automaton link rest treeNode linkable inductionHypothesis =>
    rw [linkAll_cons_ok linkable] at succeeded ⊢
    rw [List.cons_append, course_cons_ok linkable, course_cons_ok linkable, ← List.append_assoc,
      inductionHypothesis succeeded, Course.preceded_followedBy]
    rfl

theorem unlinkedCount_linkAll_le (automaton : Automaton) (links : List Link) :
    (automaton.linkAll links).automaton.unlinkedCount ≤ automaton.unlinkedCount :=
  linkAll_keeps (motive := fun before after => after.unlinkedCount ≤ before.unlinkedCount)
    (fun automaton => Nat.le_refl automaton.unlinkedCount)
    (fun linkable smaller => smaller.trans
      (Nat.le_of_succ_le (unlinkedCount_linkNode linkable _).le)) automaton links

/-- Calls that agree with linking on each link agree with it on a row. -/
theorem inTurn_eq_course {call : Automaton → Link → Option Course} {depth : Nat}
    (agrees : ∀ automaton link, automaton.unlinkedCount < depth →
      call automaton link = some (automaton.course [link]))
    {automaton : Automaton} (room : automaton.unlinkedCount < depth) (links : List Link) :
    inTurn call automaton links = some (automaton.course links) := by
  induction links generalizing automaton with
  | nil => rw [inTurn, course_nil]
  | cons link rest inductionHypothesis =>
    rw [inTurn, agrees automaton link room, Option.bind_some]
    cases answer : (automaton.linkAll [link]).answer with
    | error fault =>
      have whole : automaton.course (link :: rest) = automaton.course [link] :=
        course_append_of_error answer rest
      rw [whole]
      simp only [course, answer]
    | ok done =>
      have whole : automaton.course (link :: rest) = (automaton.course [link]).followedBy
          ((automaton.linkAll [link]).automaton.course rest) := course_append_of_ok answer rest
      -- Linking makes no node unlinked, so there is room for the other calls as well.
      have roomBehind := (automaton.unlinkedCount_linkAll_le [link]).trans_lt room
      rw [whole]
      simp only [course, answer]
      rw [inductionHypothesis roomBehind]
      rfl

/-- The calls never go deeper than there are unlinked nodes, and one more, and they do what linking
does. -/
theorem linkNested_eq_course {depth : Nat} {automaton : Automaton}
    (room : automaton.unlinkedCount < depth) (link : Link) :
    linkNested depth automaton link = some (automaton.course [link]) := by
  induction depth generalizing automaton link with
  | zero => exact absurd room (Nat.not_lt_zero _)
  | succ depth inductionHypothesis =>
    rw [linkNested]
    cases linkable : automaton.linkable link.node with
    | error fault => rw [course_cons_error linkable]
    | ok treeNode =>
      -- The store of this call makes up for the level that the calls inside it are deeper.
      have smaller := unlinkedCount_linkNode linkable treeNode.node
      have roomInside : (automaton.linkNode link treeNode.node).1.unlinkedCount < depth := by omega
      rw [course_cons_ok linkable, List.append_nil]
      dsimp only
      rw [inTurn_eq_course (fun _ link room => inductionHypothesis room link) roomInside]
      rfl

/-! ### Linking ends -/

/-- What the deeds of linking amount to between two arenas. Nothing else changes the arena, and
each continuation is stored in a tree node that has none at that point. -/
structure IsJournal (before : Automaton) (deeds : List Deed) (after : Automaton) : Prop where
  replayed : before.replay deeds = .ok after
  /-- Every call but the first is made for a child of a node that had its continuation stored
  before. -/
  called {front back : List Deed} {link : Link} : deeds = front ++ .call link :: back →
    front ≠ [] → ∃ caller ∈ storedBy front, link.node ∈ before.openChildren caller
  /-- Every call finds one unlinked node less than the call before. -/
  fewer {front back : List Deed} {link : Link} : deeds = front ++ .call link :: back →
    ∃ now, before.replay front = .ok now ∧
      now.unlinkedCount + front.countP Deed.isCall = before.unlinkedCount
  unlinked {id : StateId} : id ∈ storedBy deeds → before.IsUnlinked id
  once : (storedBy deeds).Nodup
  /-- States are added only as glue of nodes that have their continuation stored, two for each of
  them at most. -/
  owned {state : State} : state ∈ pushedBy deeds →
    ∃ owner ∈ storedBy deeds, state.owner? = some owner
  bounded (owner : StateId) : (glueOf owner (pushedBy deeds)).length ≤ 2

theorem isJournal_journal (automaton : Automaton) (link : Link) :
    automaton.IsJournal (automaton.journal [link]) (automaton.linkAll [link]).automaton where
  replayed := automaton.replay_journal [link]
  called := by
    intro front back called split later
    cases linkable : automaton.linkable link.node with
    | error fault => exact absurd (journal_cons_error_split linkable split).1 later
    | ok treeNode =>
      rcases journal_cons_split linkable split with ⟨first, -⟩ | ⟨behind, rfl, rest⟩
      · exact absurd first later
      · exact (caller_of_step linkable (caller_before_call rest)).resolve_left List.not_mem_nil
  fewer := unlinkedCount_before_call
  unlinked := isUnlinked_of_mem_storedBy
  once := nodup_storedBy (automaton.replay_journal [link])
  owned := exists_owner_of_mem_pushedBy
  bounded owner := by
    have once := nodup_storedBy (automaton.replay_journal [link])
    have count := List.nodup_iff_count_le_one.mp once owner
    have glue := automaton.length_glueOf_journal_le [link] owner
    omega

end Automaton

/-- Setting a continuation ends on every automaton. The calls nested in each other never outnumber
the unlinked nodes by more than one, because each of them but the first comes after a continuation
was stored in a node that had none, the parent of the node it is made for. Each node receives a
continuation at most once, and with it at most two glue states. -/
theorem setContinuation_ends (automaton : Automaton) (id next : StateId) :
    let outcome := automaton.setContinuation id next
    ∃ deeds, (∀ depth, automaton.unlinkedCount < depth →
        automaton.linkNested depth ⟨id, next⟩ = some ⟨outcome, deeds⟩) ∧
      automaton.IsJournal deeds outcome.automaton :=
  ⟨automaton.journal [⟨id, next⟩], fun _ room => Automaton.linkNested_eq_course room _,
    automaton.isJournal_journal ⟨id, next⟩⟩

/-- A repetition of itself has to be called for twice, the second time in vain, and two glue states
are added. One call is too few. -/
example :
    let repeats : Quantifier := ⟨⟨0, 0⟩, .greedy, .sign .plus⟩
    let looped : Automaton :=
      ⟨⟨"", .java, []⟩, #[.tree ⟨⟨0, 0⟩, .empty, .repetition ⟨0⟩ repeats, none⟩]⟩
    (looped.linkNested 1 ⟨⟨0⟩, ⟨1⟩⟩).isNone ∧
      ∃ course, looped.linkNested 2 ⟨⟨0⟩, ⟨1⟩⟩ = some course ∧
        course.outcome.answer = .error (.alreadyLinked ⟨0⟩) ∧ storedBy course.deeds = [⟨0⟩] ∧
          (pushedBy course.deeds).length = 2 :=
  ⟨by decide +kernel, _, rfl, by decide +kernel⟩

end PatternGraph
