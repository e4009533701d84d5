import Mathlib.Data.List.Induction
import LispEditor.Indent.OpenGroups
import LispEditor.Motion.Group
import LispEditor.Proofs.Lines

/-!
# The stack of open groups

The openers that are not closed yet can be found in two ways: by a stack that is kept while going
forwards, and by a search backwards that counts brackets. Both ignore the shape of brackets and
closers that close nothing, and they agree at every depth: the opener that the search finds after
passing over `depth` groups is the entry of the stack at `depth`.

* `enclosingOpener_reverse`: the agreement.
* `OpenGroups.Tracks`: what a pass keeps true of its stack, and `innermost?_advance`: why its answers
  are those of the search.
* `stepCells_of_enclosingCloser`, `stepCells_of_unclosed`: what the search for a closer says about
  the stack.
* `enclosingCloser_ne_none`, `closes_of_innermost`: what may follow the opener of the innermost group.
-/

namespace LispEditor

namespace Cell

/-- No bracket both opens and closes. -/
theorem closes_of_opens {cell : Cell} (opens : cell.opens = true) : cell.closes = false := by
  simp only [Cell.opens, Bool.and_eq_true, isOpener, List.mem_cons, List.not_mem_nil, or_false,
    decide_eq_true_eq] at opens
  obtain ⟨-, round | square | curly⟩ := opens
  · simp [closes, isCloser, round]
  · simp [closes, isCloser, square]
  · simp [closes, isCloser, curly]

end Cell

namespace OpenGroups

theorem stepCells_append (stack : List Nat) (offset : Nat) (a b : List Cell) :
    stepCells stack offset (a ++ b) =
      stepCells (stepCells stack offset a) (offset + a.length) b := by
  induction a generalizing stack offset with
  | nil => rfl
  | cons cell rest ih =>
      have place : offset + (cell :: rest).length = offset + 1 + rest.length := by
        simp only [List.length_cons]
        omega
      rw [place]
      exact ih _ _

/-- **A search backwards reads off the stack**: with `depth` groups entered from their ends it finds
the entry at `depth`. -/
theorem enclosingOpener_reverse (depth : Nat) (cells : List Cell) :
    enclosingOpener depth cells.reverse = (stepCells [] 0 cells)[depth]? := by
  induction cells using List.reverseRecOn generalizing depth with
  | nil => rfl
  | append_singleton before cell ih =>
      rw [stepCells_append, List.reverse_append, Nat.zero_add]
      show enclosingOpener depth (cell :: before.reverse) =
        (stepCell (stepCells [] 0 before) before.length cell)[depth]?
      by_cases opens : cell.opens = true
      · have notCloses := Cell.closes_of_opens opens
        cases depth with
        | zero => simp [enclosingOpener, stepCell, opens, notCloses]
        | succ depth => simp [enclosingOpener, stepCell, opens, notCloses, ih]
      · by_cases closes : cell.closes = true
        · simp [enclosingOpener, stepCell, opens, closes, ih]
        · simp [enclosingOpener, stepCell, opens, closes, ih]

/-- Every entry of a stack stood there before or is one of the openers passed. -/
theorem exists_of_mem_stepCells {stack : List Nat} {offset : Nat} {cells : List Cell} {entry : Nat}
    (member : entry ∈ stepCells stack offset cells) :
    entry ∈ stack ∨ ∃ before opener after, cells = before ++ opener :: after ∧
      opener.opens = true ∧ entry = offset + before.length := by
  induction cells generalizing stack offset with
  | nil => exact Or.inl member
  | cons cell rest ih =>
      rcases ih member with earlier | ⟨before, opener, after, rfl, opens, rfl⟩
      · simp only [stepCell] at earlier
        split at earlier
        · next opens =>
            rcases List.mem_cons.mp earlier with rfl | earlier
            · exact Or.inr ⟨[], cell, rest, rfl, opens, rfl⟩
            · exact Or.inl earlier
        · split at earlier
          · exact Or.inl (List.mem_of_mem_tail earlier)
          · exact Or.inl earlier
      · refine Or.inr ⟨cell :: before, opener, after, rfl, opens, ?_⟩
        rw [List.length_cons]
        omega

/-- The stack is that of the characters reached, all of which are still in the text. -/
structure Tracks (groups : OpenGroups) (s : Snapshot) : Prop where
  reached_le : groups.reached ≤ s.size
  stack_eq : groups.stack = stepCells [] 0 (s.cells.take groups.reached)

theorem tracks_empty (s : Snapshot) : empty.Tracks s :=
  ⟨Nat.zero_le _, rfl⟩

/-- Text that has not been reached may change. -/
theorem Tracks.of_take_eq {groups : OpenGroups} {s s' : Snapshot} (tracks : groups.Tracks s)
    (inside : groups.reached ≤ s'.size)
    (same : s'.cells.take groups.reached = s.cells.take groups.reached) : groups.Tracks s' :=
  ⟨inside, by rw [same]; exact tracks.stack_eq⟩

/-- Going on keeps the stack right. -/
theorem Tracks.advance {groups : OpenGroups} {s : Snapshot} (tracks : groups.Tracks s)
    {offset : Nat} (ahead : groups.reached ≤ offset) (inside : offset ≤ s.size) :
    (groups.advance s offset).Tracks s := by
  have reached : max groups.reached offset = offset := Nat.max_eq_right ahead
  have size : (s.cells.take groups.reached).length = groups.reached := by
    rw [List.length_take]
    exact Nat.min_eq_left tracks.reached_le
  have pieces := take_eq_take_append ahead s.cells
  refine ⟨?_, ?_⟩
  · show max groups.reached offset ≤ s.size
    omega
  · show stepCells groups.stack groups.reached ((s.cells.take offset).drop groups.reached) =
      stepCells [] 0 (s.cells.take (max groups.reached offset))
    rw [reached, pieces, stepCells_append, ← tracks.stack_eq, size, Nat.zero_add, ← pieces]

/-- **The answer of a pass that tracks its snapshot is that of the search backwards.** -/
theorem Tracks.innermost?_advance {groups : OpenGroups} {s : Snapshot} (tracks : groups.Tracks s)
    {offset : Nat} (ahead : groups.reached ≤ offset) (inside : offset ≤ s.size) :
    (groups.advance s offset).innermost? = s.enclosing? offset := by
  have reached : (groups.advance s offset).reached = offset := Nat.max_eq_right ahead
  have stack := (tracks.advance ahead inside).stack_eq
  have here : s.clamp (offset : Int) = offset := Text.clamp_natCast_of_le inside
  rw [innermost?, stack, reached, Snapshot.enclosing?, Snapshot.cellsBefore, here,
    enclosingOpener_reverse, List.head?_eq_getElem?]

/-- Cells that leave every stack as it was: all groups opened among them are closed among them, and
no others. -/
def Balanced (cells : List Cell) : Prop :=
  ∀ stack offset, stepCells stack offset cells = stack

theorem balanced_of_no_brackets {cells : List Cell}
    (plain : ∀ cell ∈ cells, cell.opens = false ∧ cell.closes = false) : Balanced cells := by
  intro stack offset
  induction cells generalizing offset with
  | nil => rfl
  | cons cell rest ih =>
      obtain ⟨notOpener, notCloser⟩ := plain cell List.mem_cons_self
      simp only [stepCells, stepCell, notOpener, notCloser, Bool.false_eq_true, if_false]
      exact ih (fun other member => plain other (List.mem_cons_of_mem cell member)) _

theorem Balanced.append {a b : List Cell} (first : Balanced a) (second : Balanced b) :
    Balanced (a ++ b) := by
  intro stack offset
  rw [stepCells_append, first, second]

/-- A group leaves the stack as it was. -/
theorem Balanced.group {opener closer : Cell} {inner : List Cell} (opens : opener.opens = true)
    (balanced : Balanced inner) (closes : closer.closes = true) :
    Balanced (opener :: inner ++ [closer]) := by
  have notOpens : ¬ closer.opens = true := fun both => by
    simp [Cell.closes_of_opens both] at closes
  intro stack offset
  have entered : stepCells stack offset (opener :: inner) = offset :: stack := by
    rw [stepCells, balanced, stepCell, if_pos opens]
  rw [stepCells_append, entered, stepCells, stepCell, if_neg notOpens, if_pos closes]
  rfl

/-- Up to the closer that a search finds, `depth` entries leave the stack and all others stay. -/
theorem stepCells_of_enclosingCloser {depth : Nat} {cells : List Cell} {left : Nat}
    (found : enclosingCloser depth cells = some left) :
    ∃ inner closer after, cells = inner ++ closer :: after ∧ after.length = left ∧
      closer.closes = true ∧
      ∀ stack offset, stepCells stack offset inner = stack.drop depth := by
  induction cells generalizing depth with
  | nil => cases found
  | cons cell rest ih =>
      simp only [enclosingCloser] at found
      by_cases opens : cell.opens = true
      · rw [if_pos opens] at found
        obtain ⟨inner, closer, after, split, size, closes, stays⟩ := ih found
        refine ⟨cell :: inner, closer, after, by rw [split]; rfl, size, closes, ?_⟩
        intro stack offset
        rw [stepCells, stays, stepCell, if_pos opens, List.drop_succ_cons]
      · rw [if_neg opens] at found
        by_cases closes : cell.closes = true
        · rw [if_pos closes] at found
          cases depth with
          | zero =>
              refine ⟨[], cell, rest, rfl, Option.some.inj found, closes, ?_⟩
              intro stack offset
              rfl
          | succ depth =>
              obtain ⟨inner, closer, after, split, size, closes', stays⟩ := ih found
              refine ⟨cell :: inner, closer, after, by rw [split]; rfl, size, closes', ?_⟩
              intro stack offset
              rw [stepCells, stays, stepCell, if_neg opens, if_pos closes, List.drop_tail]
        · rw [if_neg closes] at found
          obtain ⟨inner, closer, after, split, size, closes', stays⟩ := ih found
          refine ⟨cell :: inner, closer, after, by rw [split]; rfl, size, closes', ?_⟩
          intro stack offset
          rw [stepCells, stays, stepCell, if_neg opens, if_neg closes]

/-- Back to the opener that a search finds, `depth` more groups are opened than closed. So a search for
closers that goes on from there to the end of the cells has that many more groups to leave. -/
theorem exists_of_enclosingOpener {depth : Nat} {cells : List Cell} {left : Nat}
    (found : enclosingOpener depth cells.reverse = some left) :
    ∃ before opener inner, cells = before ++ opener :: inner ∧ before.length = left ∧
      opener.opens = true ∧
      (∀ stack offset, (stepCells stack offset inner).drop depth = stack) ∧
      ∀ outer more, enclosingCloser outer (inner ++ more) = enclosingCloser (outer + depth) more := by
  induction cells using List.reverseRecOn generalizing depth with
  | nil => cases found
  | append_singleton front cell ih =>
      rw [List.reverse_append, List.reverse_singleton, List.singleton_append] at found
      simp only [enclosingOpener] at found
      by_cases closes : cell.closes = true
      · have notOpens : ¬ cell.opens = true := fun both => by
          simp [Cell.closes_of_opens both] at closes
        rw [if_pos closes] at found
        obtain ⟨before, opener, inner, rfl, size, opens, stays, search⟩ := ih found
        refine ⟨before, opener, inner ++ [cell], by simp, size, opens, ?_, ?_⟩
        · intro stack offset
          rw [stepCells_append, stepCells, stepCells, stepCell, if_neg notOpens, if_pos closes,
            List.drop_tail, stays]
        · intro outer more
          rw [List.append_assoc, search, ← Nat.add_assoc]
          simp only [List.singleton_append, enclosingCloser, if_neg notOpens, if_pos closes]
      · rw [if_neg closes] at found
        by_cases opens : cell.opens = true
        · rw [if_pos opens] at found
          cases depth with
          | zero =>
              rw [List.length_reverse] at found
              exact ⟨front, cell, [], rfl, Option.some.inj found, opens, fun _ _ => rfl,
                fun _ _ => rfl⟩
          | succ depth =>
              obtain ⟨before, opener, inner, rfl, size, opens', stays, search⟩ := ih found
              refine ⟨before, opener, inner ++ [cell], by simp, size, opens', ?_, ?_⟩
              · intro stack offset
                rw [stepCells_append, stepCells, stepCells, stepCell, if_pos opens,
                  List.drop_succ_cons, stays]
              · intro outer more
                rw [List.append_assoc, search, ← Nat.add_assoc]
                simp only [List.singleton_append, enclosingCloser, if_pos opens]
        · rw [if_neg opens] at found
          obtain ⟨before, opener, inner, rfl, size, opens', stays, search⟩ := ih found
          refine ⟨before, opener, inner ++ [cell], by simp, size, opens', ?_, ?_⟩
          · intro stack offset
            rw [stepCells_append, stepCells, stepCells, stepCell, if_neg opens, if_neg closes, stays]
          · intro outer more
            rw [List.append_assoc, search]
            simp only [List.singleton_append, enclosingCloser, if_neg opens, if_neg closes]

/-- Where a search finds no closer, the entries below `depth` stay for good; above them stand only
entries that stood there before and openers of the cells searched. -/
theorem stepCells_of_unclosed {depth : Nat} {cells : List Cell}
    (missing : enclosingCloser depth cells = none) (stack : List Nat) (offset : Nat) :
    ∃ newer, stepCells stack offset cells = newer ++ stack.drop depth ∧
      ∀ opener ∈ newer, offset ≤ opener ∨ opener ∈ stack.take depth := by
  induction cells generalizing depth stack offset with
  | nil =>
      refine ⟨stack.take depth, (List.take_append_drop depth stack).symm, ?_⟩
      exact fun opener member => Or.inr member
  | cons cell rest ih =>
      simp only [enclosingCloser] at missing
      by_cases opens : cell.opens = true
      · rw [if_pos opens] at missing
        obtain ⟨newer, split, sources⟩ := ih missing (offset :: stack) (offset + 1)
        refine ⟨newer, ?_, fun opener member => ?_⟩
        · rw [stepCells, stepCell, if_pos opens, split, List.drop_succ_cons]
        · rcases sources opener member with later | earlier
          · exact Or.inl (Nat.le_of_succ_le later)
          · rw [List.take_succ_cons] at earlier
            rcases List.mem_cons.mp earlier with rfl | earlier
            · exact Or.inl (Nat.le_refl _)
            · exact Or.inr earlier
      · rw [if_neg opens] at missing
        by_cases closes : cell.closes = true
        · rw [if_pos closes] at missing
          cases depth with
          | zero => cases missing
          | succ depth =>
              obtain ⟨newer, split, sources⟩ := ih missing stack.tail (offset + 1)
              refine ⟨newer, ?_, fun opener member => ?_⟩
              · rw [stepCells, stepCell, if_neg opens, if_pos closes, split, List.drop_tail]
              · rcases sources opener member with later | earlier
                · exact Or.inl (Nat.le_of_succ_le later)
                · refine Or.inr ?_
                  cases stack with
                  | nil => simp at earlier
                  | cons top others =>
                      rw [List.take_succ_cons]
                      exact List.mem_cons_of_mem top earlier
        · rw [if_neg closes] at missing
          obtain ⟨newer, split, sources⟩ := ih missing stack (offset + 1)
          refine ⟨newer, ?_, fun opener member => ?_⟩
          · rw [stepCells, stepCell, if_neg opens, if_neg closes, split]
          · rcases sources opener member with later | earlier
            · exact Or.inl (Nat.le_of_succ_le later)
            · exact Or.inr earlier

/-- A search that finds a closer finds it whatever follows. -/
theorem enclosingCloser_append_ne_none {depth : Nat} {cells : List Cell}
    (found : enclosingCloser depth cells ≠ none) (after : List Cell) :
    enclosingCloser depth (cells ++ after) ≠ none := by
  induction cells generalizing depth with
  | nil => exact absurd rfl found
  | cons cell rest ih =>
      simp only [enclosingCloser, List.cons_append] at found ⊢
      by_cases opens : cell.opens = true
      · rw [if_pos opens] at found ⊢
        exact ih found
      · rw [if_neg opens] at found ⊢
        by_cases closes : cell.closes = true
        · rw [if_pos closes] at found ⊢
          cases depth with
          | zero => exact Option.some_ne_none _
          | succ depth => exact ih found
        · rw [if_neg closes] at found ⊢
          exact ih found

/-- A group that is not closed is inside every group that was opened before it. So one that begins
behind the opener of the innermost group is closed. -/
theorem enclosingCloser_ne_none {front inner : List Cell} {opener : Cell} {entry : Nat}
    (opens : opener.opens = true)
    (innermost : (stepCells [] 0 (front ++ opener :: inner)).head? = some entry)
    (earlier : entry < front.length) : enclosingCloser 0 inner ≠ none := by
  intro missing
  rw [stepCells_append, stepCells, stepCell, if_pos opens, Nat.zero_add] at innermost
  obtain ⟨newer, stack, sources⟩ := stepCells_of_unclosed missing
    (front.length :: stepCells [] 0 front) (front.length + 1)
  rw [stack, List.drop_zero] at innermost
  cases newer with
  | nil =>
      have top : front.length = entry := Option.some.inj innermost
      omega
  | cons top others =>
      have same : top = entry := Option.some.inj innermost
      rcases sources top List.mem_cons_self with later | outer
      · omega
      · cases outer

/-- The opener of the innermost group is not closed by the next bracket. -/
theorem closes_of_innermost {before plain inner : List Cell} {opener cell : Cell}
    (opens : opener.opens = true) (balanced : Balanced plain)
    (innermost : (stepCells [] 0 (before ++ [opener] ++ plain ++ cell :: inner)).head? =
      some before.length) : cell.closes = false := by
  rw [Bool.eq_false_iff]
  intro closes
  have notOpener : ¬ cell.opens = true := fun both => by
    simp [Cell.closes_of_opens both] at closes
  rw [stepCells_append, stepCells_append, balanced, stepCells_append, stepCells, stepCell,
    if_neg notOpener, if_pos closes] at innermost
  simp only [stepCells, stepCell, if_pos opens, List.tail_cons] at innermost
  rcases exists_of_mem_stepCells (List.mem_of_mem_head? innermost) with older | newer
  · rcases exists_of_mem_stepCells older with outside | ⟨front, other, after, split, -, place⟩
    · cases outside
    · have sizes := congrArg List.length split
      rw [List.length_append, List.length_cons] at sizes
      omega
  · obtain ⟨front, other, after, -, -, place⟩ := newer
    simp only [List.length_append] at place
    omega

end OpenGroups

end LispEditor
