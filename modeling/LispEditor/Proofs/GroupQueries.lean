import LispEditor.Proofs.BlankEdits
import LispEditor.Proofs.PrescribedColumn

/-!
# Asking for groups in order

A stack of open groups may be asked again and again for the group around an offset, and blanks may be
replaced in between. As long as the offsets do not go back and no edit touches what lies before the last
of them, it answers as if it had searched backwards from the offset in the text as it is by then. For
that the stack has to be the one of the present text up to the last offset, and this is what every
event keeps true: asking goes on from there, and an edit leaves all that lies before it.

* `GroupPass.Reachable`: the passes that questions and edits lead to.
* `GroupPass.InStep`: what they keep true, and `InStep.next`: one event.
* `GroupPass.answers_as_searched`: answers and stack of every such pass.
-/

namespace LispEditor

/-- A stack of open groups with the snapshot that it looks at and the offset that it was last asked
for. -/
structure GroupPass where
  groups : OpenGroups
  snapshot : Snapshot
  asked : Nat

/-- What can happen to a pass: it is asked for the group around an offset, or blanks are replaced. -/
inductive GroupEvent where
  | ask (offset : Nat)
  | replace (edit : BlankEdit)

namespace GroupPass

/-- The pass through a text that has not been asked for anything yet. -/
def start (text : Text) : GroupPass :=
  ⟨.empty, .ofText text, 0⟩

/-- What a pass answers when it is asked for the group around an offset. -/
def answer (pass : GroupPass) (offset : Nat) : Except OffsetError (Option Nat) :=
  (pass.groups.enclosing pass.snapshot offset).2

/-- The pass after an event. -/
def next (pass : GroupPass) : GroupEvent → GroupPass
  | .ask offset => ⟨(pass.groups.enclosing pass.snapshot offset).1, pass.snapshot, offset⟩
  | .replace edit => { pass with snapshot := edit.splice pass.snapshot }

/-- Spaces and tabs that are code, not before the last offset asked for, are replaced by others. -/
structure AllowsEdit (pass : GroupPass) (edit : BlankEdit) : Prop where
  behind : pass.asked ≤ edit.start
  order : edit.start ≤ edit.stop
  inside : edit.stop ≤ pass.snapshot.size
  old : ∀ cell ∈ (pass.snapshot.cells.take edit.stop).drop edit.start,
    cell.kind = .code ∧ isIndentation cell.char = true
  new : ∀ c ∈ edit.blank, isIndentation c = true

/-- What may happen next: a question about an offset of the text that is not before the last one, or
an edit that leaves what lies before the last one. -/
def Allows (pass : GroupPass) : GroupEvent → Prop
  | .ask offset => pass.asked ≤ offset ∧ offset ≤ pass.snapshot.size
  | .replace edit => pass.AllowsEdit edit

/-- The passes that a text leads to. -/
inductive Reachable (text : Text) : GroupPass → Prop where
  | start : Reachable text (start text)
  | next {pass : GroupPass} {event : GroupEvent} : Reachable text pass → pass.Allows event →
      Reachable text (pass.next event)

/-! ### One event -/

/-- The stack is the one of the present text, up to the last offset asked for. -/
structure InStep (pass : GroupPass) : Prop where
  tracks : pass.groups.Tracks pass.snapshot
  reached : pass.groups.reached = pass.asked

theorem enclosing_of_inside {groups : OpenGroups} {s : Snapshot} {offset : Nat}
    (inside : offset ≤ s.size) :
    groups.enclosing s offset =
      (groups.advance s offset, .ok (groups.advance s offset).innermost?) := by
  have stays : groups.leavesText s offset = false := by
    rw [OpenGroups.leavesText, Bool.and_eq_false_iff]
    exact .inr (decide_eq_false (Int.not_lt.mpr (Int.ofNat_le.mpr inside)))
  rw [OpenGroups.enclosing, stays]
  rfl

/-- An edit leaves the cells before it. -/
theorem take_cells_splice {edit : BlankEdit} {s : Snapshot} (inside : edit.start ≤ s.cells.length)
    {offset : Nat} (behind : offset ≤ edit.start) :
    (edit.splice s).cells.take offset = s.cells.take offset := by
  have front : Text.sliceTo s.cells edit.start = s.cells.take edit.start := by
    rw [Text.sliceTo, Text.resolve_natCast_of_le inside]
  have long : offset ≤ (s.cells.take edit.start).length := by
    rw [List.length_take_of_le inside]
    exact behind
  show (Text.splice s.cells edit.start edit.stop _).take offset = _
  rw [Text.splice, front, List.append_assoc, List.take_append_of_le_length long, List.take_take,
    Nat.min_eq_left behind]

/-- **An event keeps the stack in step with the text.** -/
theorem InStep.next {pass : GroupPass} (inStep : pass.InStep) {event : GroupEvent}
    (allows : pass.Allows event) : (pass.next event).InStep := by
  cases event with
  | ask offset =>
      obtain ⟨order, inside⟩ := allows
      have ahead : pass.groups.reached ≤ offset := inStep.reached.trans_le order
      rw [GroupPass.next, enclosing_of_inside inside]
      exact ⟨inStep.tracks.advance ahead inside, Nat.max_eq_right ahead⟩
  | replace edit =>
      -- What is replaced does not matter, only that it lies behind what the stack has seen.
      have behind : pass.groups.reached ≤ edit.start := inStep.reached.trans_le allows.behind
      have same := take_cells_splice (allows.order.trans allows.inside) behind
      refine ⟨inStep.tracks.of_take_eq ?_ same, inStep.reached⟩
      have sizes := congrArg List.length same
      rw [List.length_take, List.length_take_of_le inStep.tracks.reached_le] at sizes
      show pass.groups.reached ≤ (edit.splice pass.snapshot).cells.length
      omega

/-- **Every event of a run does.** -/
theorem inStep_of_reachable {text : Text} {pass : GroupPass} (reachable : Reachable text pass) :
    pass.InStep := by
  induction reachable with
  | start => exact ⟨OpenGroups.tracks_empty _, rfl⟩
  | next _ allows ih => exact ih.next allows

/-! ### Answers and stack -/

/-- A pass answers every question that it may be asked as a search backwards through the present text
does, and its stack holds, the outermost first, the openers before the last offset asked for that
nothing before that offset closes. -/
structure AnswersAsSearched (pass : GroupPass) : Prop where
  answers : ∀ offset, pass.Allows (.ask offset) →
    pass.answer offset = .ok (pass.snapshot.enclosing? offset)
  increasing : pass.groups.stack.reverse.Pairwise (· < ·)
  unclosed : ∀ place,
    place ∈ pass.groups.stack.reverse ↔ Unclosed (pass.snapshot.cells.take pass.asked) place

/-- **A stack that is asked in order answers like a search backwards**, whatever blanks are replaced
behind the last offset asked for. -/
theorem answers_as_searched {text : Text} {pass : GroupPass} (reachable : Reachable text pass) :
    pass.AnswersAsSearched := by
  have inStep := inStep_of_reachable reachable
  have stack : pass.groups.stack =
      OpenGroups.stepCells [] 0 (pass.snapshot.cells.take pass.asked) := by
    rw [← inStep.reached]
    exact inStep.tracks.stack_eq
  refine ⟨?_, ?_, ?_⟩
  · rintro offset ⟨order, inside⟩
    have ahead : pass.groups.reached ≤ offset := inStep.reached.trans_le order
    rw [answer, enclosing_of_inside inside, inStep.tracks.innermost?_advance ahead inside]
  · rw [stack, List.pairwise_reverse]
    apply OpenGroups.pairwise_stepCells _ .nil
    intro entry none
    cases none
  · intro place
    rw [stack, List.mem_reverse, OpenGroups.mem_stepCells_iff]

/-- Two groups are open where the second line begins. Its blanks are replaced before the next
question. -/
theorem answers_as_searched_moved_line :
    ∃ pass, Reachable "(a [b\n    c) d".toList pass ∧ pass.snapshot.text = "(a [b\n  c) d".toList ∧
      pass.groups.stack = [3, 0] ∧ pass.Allows (.ask 10) ∧ pass.answer 10 = .ok (some 0) := by
  have scanned := Snapshot.ofText_eq_snapshot "(a [b\n    c) d".toList
  have asks : (start "(a [b\n    c) d".toList).Allows (.ask 6) := by
    rw [start, scanned]
    constructor
    · exact Nat.zero_le _
    · decide +kernel
  have edits : ((start "(a [b\n    c) d".toList).next (.ask 6)).Allows
      (.replace ⟨6, 10, "  ".toList⟩) := by
    rw [start, scanned]
    refine ⟨?_, ?_, ?_, ?_, List.all_eq_true.mp rfl⟩ <;> decide +kernel
  have reachable := Reachable.next (.next .start asks) edits
  have asksAgain : (((start "(a [b\n    c) d".toList).next (.ask 6)).next
      (.replace ⟨6, 10, "  ".toList⟩)).Allows (.ask 10) := by
    rw [start, scanned]
    constructor <;> decide +kernel
  refine ⟨_, reachable, ?_, ?_, asksAgain, ?_⟩
  · rw [start, scanned]
    decide +kernel
  · rw [start, scanned]
    decide +kernel
  · rw [(answers_as_searched reachable).answers 10 asksAgain, start, scanned]
    decide +kernel

end GroupPass

end LispEditor
