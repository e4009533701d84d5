import LispEditor.Proofs.EditorIndent
import LispEditor.Proofs.RegionRange

/-!
# The cursor of a region pass

Every visit moves the cursor with the text of its line. Told by lines and columns instead of offsets,
only the visit to the line that the cursor stands on does anything to it: lines above change where its
line starts, and lines below do not matter.

* `columnAfter`: where a visit puts a cursor on its line.
* `cursorAfter`, `Faithful.cursor_run`: where a pass puts a cursor.
* `Carries`: the line of the cursor before and after, with the column on each;
  `carries_cursorAfter`: a pass does one of the two things that it allows.
* `indentRegion_carries`: the same for texts.
* `indentRegion_keeps_cursor`: what that means for offsets, and that no cursor overtakes another one.
-/

namespace LispEditor

open Text (unlines block)

/-! ### One line -/

/-- Where a visit puts a cursor that stands at `column` of a line below the text `a`. A column beyond
the line is one on the lines below, and a negative one is one on the lines above. -/
def columnAfter (width : Int) (a line : Text) (column : Int) : Int :=
  if (Mode.code.after a).inString then column
  else moveCursor 0 (line.takeWhile isIndentation).length (lineIndent width a line).length column

section Column

variable {width : Int} {a line : Text} {column : Int}

/-- How much longer a line becomes is how much longer its blanks become. -/
theorem length_reindentedLine (width : Int) (a line : Text) :
    ((reindentedLine width a line).length : Int) - line.length =
      (lineIndent width a line).length - (line.takeWhile isIndentation).length := by
  have old := congrArg List.length (List.takeWhile_append_dropWhile (p := isIndentation) (l := line))
  rw [reindentedLine]
  simp only [List.length_append] at old ⊢
  omega

theorem reindentedLine_of_inString (inside : (Mode.code.after a).inString = true) :
    reindentedLine width a line = line := by
  rw [reindentedLine, lineIndent, if_pos inside, List.takeWhile_append_dropWhile]

theorem columnAfter_of_inString (inside : (Mode.code.after a).inString = true) :
    columnAfter width a line column = column :=
  if_pos inside

/-- A cursor above the line stays. -/
theorem columnAfter_of_neg (above : column < 0) : columnAfter width a line column = column := by
  unfold columnAfter moveCursor
  split
  · rfl
  · rw [if_neg (by omega), if_neg (by omega)]

/-- A cursor in the blanks goes behind the new ones. -/
theorem columnAfter_of_le (outside : (Mode.code.after a).inString = false) (on : 0 ≤ column)
    (within : column ≤ (line.takeWhile isIndentation).length) :
    columnAfter width a line column = (lineIndent width a line).length := by
  rw [columnAfter, if_neg (by simp [outside]), moveCursor, if_pos ⟨on, within⟩, Int.zero_add]

/-- A cursor at or behind the end of the blanks keeps its distance to the end of the line. -/
theorem columnAfter_of_ge (behind : (line.takeWhile isIndentation).length ≤ column) :
    columnAfter width a line column = column + ((reindentedLine width a line).length - line.length) := by
  rcases Bool.eq_false_or_eq_true (Mode.code.after a).inString with inside | outside
  · rw [columnAfter_of_inString inside, reindentedLine_of_inString inside]
    omega
  · rw [length_reindentedLine]
    rcases Int.lt_or_eq_of_le behind with more | here
    · rw [columnAfter, if_neg (by simp [outside]), moveCursor, if_neg (by omega), if_pos more]
      omega
    · rw [columnAfter_of_le outside (by omega) (by omega)]
      omega

/-- A cursor on a line stays on it. -/
theorem columnAfter_bounds (on : 0 ≤ column) (within : column ≤ line.length) :
    0 ≤ columnAfter width a line column ∧
      columnAfter width a line column ≤ (reindentedLine width a line).length := by
  rcases Bool.eq_false_or_eq_true (Mode.code.after a).inString with inside | outside
  · rw [columnAfter_of_inString inside, reindentedLine_of_inString inside]
    exact ⟨on, within⟩
  · have new : (lineIndent width a line).length ≤ (reindentedLine width a line).length :=
      (List.sublist_append_left _ _).length_le
    have growth := length_reindentedLine width a line
    rcases Int.le_total column (line.takeWhile isIndentation).length with blanks | behind
    · rw [columnAfter_of_le outside on blanks]
      omega
    · rw [columnAfter_of_ge behind]
      omega

/-- No cursor overtakes another one. -/
theorem columnAfter_mono {column' : Int} (le : column ≤ column') :
    columnAfter width a line column ≤ columnAfter width a line column' := by
  unfold columnAfter
  split
  · exact le
  · unfold moveCursor
    grind

end Column

/-! ### A pass -/

/-- Where a pass puts a cursor `offset` characters beyond `a`, counted from there. -/
def cursorAfter (width : Int) (a : Text) (left offset : Int) : List Text → Int
  | [] => offset
  | line :: below =>
      let new := reindentedLine width a line
      let moved := columnAfter width a line offset
      if 0 < leftBehind line new left then
        (new.length + 1) + cursorAfter width (a ++ new ++ ['\n']) (leftBehind line new left)
          (moved - (new.length + 1)) below
      else moved

theorem cursorAfter_next {width left : Int} {a line : Text}
    (more : 0 < leftBehind line (reindentedLine width a line) left) (offset : Int)
    (below : List Text) :
    cursorAfter width a left offset (line :: below) =
      ((reindentedLine width a line).length + 1) +
        cursorAfter width (a ++ reindentedLine width a line ++ ['\n'])
          (leftBehind line (reindentedLine width a line) left)
          (columnAfter width a line offset - ((reindentedLine width a line).length + 1)) below := by
  simp only [cursorAfter, if_pos more]

theorem cursorAfter_last {width left : Int} {a line : Text}
    (last : ¬ 0 < leftBehind line (reindentedLine width a line) left) (offset : Int)
    (below : List Text) :
    cursorAfter width a left offset (line :: below) = columnAfter width a line offset := by
  simp only [cursorAfter, if_neg last]

/-- A cursor above the lines stays. -/
theorem cursorAfter_of_neg {offset : Int} (above : offset < 0) (width : Int) (a : Text) (left : Int)
    (lines : List Text) : cursorAfter width a left offset lines = offset := by
  induction lines generalizing a left offset with
  | nil => rfl
  | cons line below ih =>
      simp only [cursorAfter, columnAfter_of_neg above]
      split
      · rw [ih (by omega)]
        omega
      · rfl

/-- Lines below that of the cursor do not matter. -/
theorem cursorAfter_first {column : Int} {line : Text} (on : 0 ≤ column)
    (within : column ≤ line.length) (width : Int) (a : Text) (left : Int) (below : List Text) :
    cursorAfter width a left column (line :: below) = columnAfter width a line column := by
  have bound : columnAfter width a line column ≤ (reindentedLine width a line).length :=
    (columnAfter_bounds on within).2
  by_cases more : 0 < leftBehind line (reindentedLine width a line) left
  · rw [cursorAfter_next more, cursorAfter_of_neg (by omega)]
    omega
  · rw [cursorAfter_last more]

/-- A cursor behind a line keeps its distance from it. -/
theorem columnAfter_below (width : Int) (a line : Text) {offset : Int} (beyond : 0 ≤ offset) :
    columnAfter width a line (line.length + 1 + offset) =
      (reindentedLine width a line).length + 1 + offset := by
  have blanks : (line.takeWhile isIndentation).length ≤ line.length :=
    (List.takeWhile_sublist isIndentation).length_le
  rw [columnAfter_of_ge (by omega)]
  omega

/-- No cursor overtakes another one. -/
theorem cursorAfter_mono {offset offset' : Int} (le : offset ≤ offset') (width : Int) (a : Text)
    (left : Int) (lines : List Text) :
    cursorAfter width a left offset lines ≤ cursorAfter width a left offset' lines := by
  induction lines generalizing a left offset offset' with
  | nil => exact le
  | cons line below ih =>
      have moved : columnAfter width a line offset ≤ columnAfter width a line offset' :=
        columnAfter_mono le
      simp only [cursorAfter]
      split
      · exact Int.add_le_add_left (ih (Int.sub_le_sub_right moved _) _ _) _
      · exact moved

namespace RegionPass

theorem moveCursor_shift (distance start stop : Int) (length : Nat) (cursor : Int) :
    moveCursor (distance + start) (distance + stop) length cursor =
      distance + moveCursor start stop length (cursor - distance) := by
  unfold moveCursor
  grind

namespace Faithful

variable {pass : RegionPass} {a line : Text} {below : List Text}

/-- Where a visit puts the cursor. -/
theorem cursor_visit (faithful : pass.Faithful a (unlines (line :: below)))
    (ends : Text.EndsLine a) (width : Int) :
    (pass.visit a.length width).cursor =
      a.length + columnAfter width a line (pass.cursor - a.length) := by
  have indent := faithful.edit_indent ends width
  have edit := faithful.edit_eq_indentEdit ends width
  show (pass.edit a.length width).cursor = _
  rw [columnAfter]
  cases inside : (Mode.code.after a).inString with
  | true =>
      rw [edit, Snapshot.indentEdit_of_inside faithful.text_eq ends (faithful.inString_eq.trans inside),
        if_pos rfl]
      show pass.cursor = _
      omega
  | false =>
      have outside := faithful.inString_eq.trans inside
      rw [edit, Snapshot.indentEdit_of_outside faithful.text_eq ends outside] at indent
      have fresh : freshBlanks (pass.snapshot.advise a.length width).target
          ((unlines (line :: below)).takeWhile isIndentation) = lineIndent width a line := indent
      rw [edit, Snapshot.indentEdit_of_outside faithful.text_eq ends outside, fresh,
        takeWhile_unlines, List.length_append, if_neg Bool.false_ne_true, ← moveCursor_shift,
        Int.add_zero]
      rfl

/-- **Where a pass puts the cursor.** -/
theorem cursor_run (faithful : pass.Faithful a (unlines (line :: below))) (ends : Text.EndsLine a)
    (single : ∀ l ∈ line :: below, '\n' ∉ l) (width : Int) {further : Nat}
    (enough : below.length ≤ further) :
    (pass.run width further a.length).cursor =
      a.length + cursorAfter width a (pass.stop - a.length) (pass.cursor - a.length)
        (line :: below) := by
  have moved := faithful.cursor_visit ends width
  have leads := faithful.nextLine?_visit ends (single line List.mem_cons_self) width
  induction below generalizing pass a line further with
  | nil =>
      rw [if_neg fun both => both.1 rfl] at leads
      rw [run_last leads, moved]
      simp only [cursorAfter]
      split <;> omega
  | cons next others ih =>
      by_cases more : 0 < leftBehind line (reindentedLine width a line) (pass.stop - a.length)
      · rw [if_pos ⟨List.cons_ne_nil next others, more⟩] at leads
        obtain ⟨further, rfl⟩ := Nat.exists_eq_add_of_le' (Nat.le_trans (Nat.le_add_left 1 _) enough)
        have clean : ∀ l ∈ next :: others, '\n' ∉ l :=
          fun l member => single l (List.mem_cons_of_mem line member)
        have known := faithful.next_line ends width
        have starts := Text.endsLine_append_newline (a ++ reindentedLine width a line)
        have result := ih known starts clean (Nat.le_of_succ_le_succ enough)
          (known.cursor_visit starts width)
          (known.nextLine?_visit starts (clean next List.mem_cons_self) width)
        have place : (pass.visit a.length width).cursor -
              (a ++ reindentedLine width a line ++ ['\n']).length =
            columnAfter width a line (pass.cursor - a.length) -
              ((reindentedLine width a line).length + 1) := by
          rw [moved]
          simp only [List.length_append, List.length_singleton]
          omega
        rw [run_next leads, result, faithful.stop_visit ends, place, cursorAfter_next more]
        simp only [List.length_append, List.length_singleton]
        omega
      · rw [if_neg fun both => more both.2] at leads
        rw [run_last leads, moved, cursorAfter_last more]

end Faithful

end RegionPass

/-! ### The line of the cursor -/

/-- A re-indented line leaves the scan of what follows as it was. -/
theorem after_reindentedLine {a : Text} (ends : Text.EndsLine a) (width : Int) (line : Text) :
    (Mode.code.after a).after (reindentedLine width a line) = (Mode.code.after a).after line := by
  rcases Bool.eq_false_or_eq_true (Mode.code.after a).inString with inside | outside
  · rw [reindentedLine_of_inString inside]
  · have skip {blanks : Text} (all : ∀ c ∈ blanks, isIndentation c = true) (rest : Text) :
        Mode.code.after (blanks ++ rest) = Mode.code.after rest := by
      rw [Mode.after_append,
        Mode.after_separators fun c member => isSeparator_of_isIndentation (all c member)]
    rw [Mode.after_eq_code ends outside, reindentedLine, skip isIndentation_of_mem_lineIndent]
    conv => rhs; rw [← List.takeWhile_append_dropWhile (p := isIndentation) (l := line)]
    rw [skip fun c => List.mem_takeWhile_imp]

theorem append_block_cons (a line : Text) (lines : List Text) :
    a ++ block (line :: lines) = a ++ line ++ ['\n'] ++ block lines := by
  rw [Text.block_cons]
  simp

/-- What a pass does to a line below `a` and to a cursor at `column` of it: a line that is visited
takes the cursor with it, and any other line stays. -/
inductive Carries (width : Int) (a line : Text) (column : Int) : Bool → Text → Int → Prop where
  | visited : Carries width a line column true (reindentedLine width a line)
      (columnAfter width a line column)
  | left : Carries width a line column false line column

namespace Carries

variable {width : Int} {a line line' : Text} {column column' : Int} {visits : Bool}

theorem bounds (carries : Carries width a line column visits line' column') (on : 0 ≤ column)
    (within : column ≤ line.length) : 0 ≤ column' ∧ column' ≤ line'.length := by
  cases carries with
  | visited => exact columnAfter_bounds on within
  | left => exact ⟨on, within⟩

/-- Behind the blanks, the distance to the end of the line stays. -/
theorem behind (carries : Carries width a line column visits line' column')
    (reached : (line.takeWhile isIndentation).length ≤ column) :
    (line'.length : Int) - column' = line.length - column := by
  cases carries with
  | visited =>
      rw [columnAfter_of_ge reached]
      omega
  | left => rfl

/-- In the blanks of a line that is visited, the cursor goes to the end of the new ones. -/
theorem inBlanks (carries : Carries width a line column true line' column')
    (outside : (Mode.code.after a).inString = false) (on : 0 ≤ column)
    (within : column ≤ (line.takeWhile isIndentation).length) :
    column' = (line'.takeWhile isIndentation).length := by
  cases carries with
  | visited => rw [columnAfter_of_le outside on within, takeWhile_reindentedLine]

/-- On any other line the cursor keeps its column. -/
theorem column_eq (carries : Carries width a line column visits line' column')
    (stays : (Mode.code.after a).inString = true ∨ visits = false) : column' = column := by
  cases carries with
  | visited => exact columnAfter_of_inString (stays.resolve_right Bool.false_ne_true.symm)
  | left => rfl

end Carries

/-- **A pass carries the cursor with the line that it stands on.** -/
theorem carries_cursorAfter (width : Int) {a : Text} (ends : Text.EndsLine a) (left : Int)
    (above : List Text) (line : Text) (below : List Text) {column : Int} (on : 0 ≤ column)
    (within : column ≤ line.length) :
    ∃ above' line' below' column',
      linesAfter width a left (above ++ line :: below) = above' ++ line' :: below' ∧
      above'.length = above.length ∧
      Mode.code.after (a ++ block above') = Mode.code.after (a ++ block above) ∧
      cursorAfter width a left ((block above).length + column) (above ++ line :: below) =
        (block above').length + column' ∧
      Carries width (a ++ block above') line column
        (decide (above.length < (visitLines width a left (above ++ line :: below)).length))
        line' column' := by
  induction above generalizing a left with
  | nil =>
      have visited : decide (([] : List Text).length <
          (visitLines width a left ([] ++ line :: below)).length) = true := by
        simp [visitLines]
      have none (x : Int) : ((block []).length : Int) + x = x := Int.zero_add x
      rw [visited, List.nil_append, none, cursorAfter_first on within]
      obtain ⟨below', lines⟩ : ∃ below',
          linesAfter width a left (line :: below) = reindentedLine width a line :: below' := by
        by_cases more : 0 < leftBehind line (reindentedLine width a line) left
        · exact ⟨_, linesAfter_next more below⟩
        · exact ⟨_, linesAfter_last more below⟩
      refine ⟨[], _, below', _, lines, rfl, rfl, (none _).symm, ?_⟩
      rw [Text.block_nil, List.append_nil]
      exact .visited
  | cons first above ih =>
      have beyond : (0 : Int) ≤ (block above).length + column :=
        Int.add_nonneg (Int.natCast_nonneg _) on
      have offset : ((block (first :: above)).length : Int) + column =
          first.length + 1 + ((block above).length + column) := by
        rw [Text.block_cons, List.length_append, List.length_cons]
        omega
      have mode : Mode.code.after (a ++ reindentedLine width a first ++ ['\n'] ++ block above) =
          Mode.code.after (a ++ block (first :: above)) := by
        rw [append_block_cons]
        simp only [Mode.after_append, after_reindentedLine ends]
      rw [List.cons_append, offset]
      by_cases more : 0 < leftBehind first (reindentedLine width a first) left
      · have starts := Text.endsLine_append_newline (a ++ reindentedLine width a first)
        obtain ⟨above', line', below', column', lines, count, mode', place, carries⟩ := ih starts
          (leftBehind first (reindentedLine width a first) left)
        refine ⟨reindentedLine width a first :: above', line', below', column', ?_, ?_, ?_, ?_, ?_⟩
        · rw [linesAfter_next more, lines, List.cons_append]
        · rw [List.length_cons, count, List.length_cons]
        · rw [append_block_cons, mode', mode]
        · rw [cursorAfter_next more, columnAfter_below _ _ _ beyond, Int.add_comm _ (_ + _),
            Int.add_sub_cancel, place, Text.block_cons, List.length_append, List.length_cons]
          omega
        · rw [append_block_cons, visitLines_next more, List.length_cons, List.length_cons]
          simpa only [Nat.succ_lt_succ_iff] using carries
      · have left' : decide ((first :: above).length <
            (visitLines width a left (first :: (above ++ line :: below))).length) = false := by
          simp [visitLines_last more]
        refine ⟨reindentedLine width a first :: above, line, below, column, ?_, rfl, ?_, ?_, ?_⟩
        · rw [linesAfter_last more, List.cons_append]
        · rw [append_block_cons, mode]
        · rw [cursorAfter_last more, columnAfter_below _ _ _ beyond, Text.block_cons,
            List.length_append, List.length_cons]
          omega
        · rw [left']
          exact .left

/-! ### The cursor of a region -/

namespace Text

/-- Where the line of an offset ends. -/
def lineEnd (text : Text) (offset : Nat) : Nat :=
  (newlineFrom text offset).getD text.length

theorem lineEnd_of_lines {text line : Text} {above below : List Text} {column : Nat}
    (division : lines text = above ++ line :: below) (within : column ≤ line.length) :
    lineEnd text ((block above).length + column) = (block above).length + line.length := by
  rw [lineEnd, newlineFrom_of_lines division within, List.length_append]

end Text

section Region

variable {text line : Text} {above below : List Text} {start stop : Int} {startColumn : Nat}

/-- Where re-indenting a region puts the cursor, if the region begins on `line`. -/
theorem indentRegion_cursor (division : text.lines = above ++ line :: below)
    (place : Text.clamp text.length (min start stop) = (block above).length + startColumn)
    (within : startColumn ≤ line.length) (cursor : Option Int) (width : Int) :
    (indentRegion text start stop cursor width).2 =
      (block above).length + cursorAfter width (block above) (max start stop - (block above).length)
        (cursor.getD start - (block above).length) (line :: below) := by
  obtain ⟨pass, further, known, cursor_eq, stop_eq, enough, result, -⟩ :=
    indentRegion_eq_run division place within cursor width
  rw [result, ← cursor_eq, ← stop_eq]
  exact known.cursor_run (Text.endsLine_block above) (Text.newline_not_mem_below division) width enough

/-- A line that starts where one of the visits is was visited. -/
theorem Visited.mem_visits_iff {result : Text} {visits : List Nat} {old new : List Text}
    (visited : Visited text result visits above old new) {above' : List Text} {line' : Text}
    {below' : List Text} (after : result.lines = above' ++ line' :: below') :
    (block above').length ∈ visits ↔
      above.length ≤ above'.length ∧ above'.length < above.length + new.length := by
  have inside : above'.length < text.lines.length := by
    rw [← visited.lineCount, after, List.length_append, List.length_cons]
    omega
  have starts : result.lineStarts[above'.length]? = some (block above').length := by
    rw [Text.getElem?_lineStarts, visited.lineCount, after, List.take_left]
    exact ⟨inside, rfl⟩
  rw [← visited.exists_visit_iff inside, starts]
  constructor
  · exact fun member => ⟨_, member, rfl⟩
  · rintro ⟨visit, member, same⟩
    rw [Option.some.inj same]
    exact member

/-- What becomes of a cursor at `column` of the line behind `above`: it stands on the same line of the
result, which was carried, and that line starts in the same mode as before. -/
def CarriedIn (width : Int) (above : List Text) (line : Text) (column : Int) (visits : List Nat)
    (result : Text) (cursor : Int) : Prop :=
  ∃ above' line' below' column', result.lines = above' ++ line' :: below' ∧
    above'.length = above.length ∧
    Mode.code.after (block above') = Mode.code.after (block above) ∧
    cursor = (block above').length + column' ∧
    Carries width (block above') line column (decide ((block above').length ∈ visits)) line' column'

/-- Of two lines of a text, the first stands above the second, or not. -/
theorem exists_between {line' : Text} {above' below' : List Text}
    (same : above ++ line :: below = above' ++ line' :: below') :
    (∃ mid, above' = above ++ line :: mid) ∨
      ∃ mid, above = above' ++ mid ∧ line' :: below' = mid ++ line :: below := by
  rcases List.append_eq_append_iff.mp same with ⟨mid, rfl, rest⟩ | behind
  · cases mid with
    | nil => exact Or.inr ⟨[], by simp, rest.symm⟩
    | cons head mid =>
        rw [List.cons_append, List.cons.injEq] at rest
        exact Or.inl ⟨mid, by rw [rest.1]⟩
  · exact Or.inr behind

/-- **Re-indenting a region carries the cursor with the line that it stands on.** -/
theorem indentRegion_carries (division : text.lines = above ++ line :: below) {column : Nat}
    (within : column ≤ line.length) (start stop width : Int) :
    CarriedIn width above line column
      (regionVisits text start stop (some ((block above).length + column : Nat)) width)
      (indentRegion text start stop (some ((block above).length + column : Nat)) width).1
      (indentRegion text start stop (some ((block above).length + column : Nat)) width).2 := by
  obtain ⟨first, head, rest, startColumn, division', place, within'⟩ :=
    Text.exists_line_of_offset (Text.clamp_le text.length (min start stop))
  have visited := visited_of_place division' place within'
    (some ((block above).length + column : Nat)) width
  have moved := indentRegion_cursor division' place within'
    (some ((block above).length + column : Nat)) width
  have after : (indentRegion text start stop (some ((block above).length + column : Nat)) width).1.lines
      = first ++ linesAfter width (block first) (max start stop - (block first).length)
        (head :: rest) := visited.after
  rw [Option.getD_some] at moved
  rcases exists_between (division.symm.trans division') with ⟨mid, rfl⟩ | ⟨mid, rfl, lines⟩
  · -- The cursor stands above the region.
    have lines := after.trans (List.append_assoc above (line :: mid) _)
    have outside : ¬ (block above).length ∈
        regionVisits text start stop (some ((block above).length + column : Nat)) width := by
      rw [visited.mem_visits_iff lines, List.length_append, List.length_cons]
      omega
    have size : (block (above ++ line :: mid)).length =
        (block above).length + (line.length + 1 + (block mid).length) := by
      rw [Text.block_append, Text.block_cons]
      simp only [List.length_append, List.length_cons]
      omega
    refine ⟨above, line, _, column, lines, rfl, rfl, ?_, ?_⟩
    · rw [moved, cursorAfter_of_neg (by omega)]
      omega
    · rw [decide_eq_false outside]
      exact .left
  · rw [lines] at after moved visited
    have offset : (((block (first ++ mid)).length + column : Nat) : Int) - (block first).length =
        (block mid).length + column := by
      rw [Text.block_append, List.length_append]
      omega
    obtain ⟨above', line', below', column', carried, count, mode, place', carries⟩ :=
      carries_cursorAfter width (Text.endsLine_block first) (max start stop - (block first).length)
        mid line below (Int.natCast_nonneg column) (Int.ofNat_le.mpr within)
    rw [carried, ← List.append_assoc] at after
    have inVisits := visited.mem_visits_iff after
    refine ⟨first ++ above', line', below', column', after, ?_, ?_, ?_, ?_⟩
    · rw [List.length_append, List.length_append, count]
    · rw [Text.block_append, Text.block_append, mode]
    · rw [moved, offset, place', Text.block_append, List.length_append]
      omega
    · rw [List.length_append, count, Nat.add_lt_add_iff_left] at inVisits
      rw [decide_eq_decide.mpr (inVisits.trans (and_iff_right (Nat.le_add_right _ _))),
        Text.block_append]
      exact carries

end Region

/-- No cursor overtakes another one. -/
theorem indentRegion_cursor_mono (text : Text) (start stop width : Int) {cursor cursor' : Int}
    (le : cursor ≤ cursor') :
    (indentRegion text start stop (some cursor) width).2 ≤
      (indentRegion text start stop (some cursor') width).2 := by
  obtain ⟨above, line, below, column, division, place, within⟩ :=
    Text.exists_line_of_offset (Text.clamp_le text.length (min start stop))
  rw [indentRegion_cursor division place within, indentRegion_cursor division place within]
  exact Int.add_le_add_left (cursorAfter_mono (Int.sub_le_sub_right le _) _ _ _ _) _

/-- A cursor is kept on its text by a change of the text in which the lines that start at `visits` were
re-indented. Distances are measured on the line of the cursor. -/
structure CursorKept (text : Text) (cursor : Nat) (visits : List Nat) (result : Text)
    (cursor' : Nat) : Prop where
  inside : cursor' ≤ result.length
  lineNumber_eq : result.lineNumber cursor' = text.lineNumber cursor
  /-- Behind the blanks, the distance to the end of the line stays. -/
  behind : (Snapshot.ofText text).indentationEnd cursor ≤ cursor →
    (result.lineEnd cursor' : Int) - cursor' = text.lineEnd cursor - cursor
  /-- In the blanks of a line that is visited, the cursor goes to the end of the new blanks. -/
  visited : (Snapshot.ofText text).inString (text.lineStart cursor) = false →
    cursor < (Snapshot.ofText text).indentationEnd cursor → result.lineStart cursor' ∈ visits →
      cursor' = (Snapshot.ofText result).indentationEnd cursor'
  /-- On any other line, the distance from the start of the line stays. -/
  left : (Snapshot.ofText text).inString (text.lineStart cursor) = true ∨
      result.lineStart cursor' ∉ visits →
    (cursor' : Int) - result.lineStart cursor' = cursor - text.lineStart cursor

theorem cursorKept_of_carriedIn {text line : Text} {above below : List Text}
    (division : text.lines = above ++ line :: below) {column : Nat} (within : column ≤ line.length)
    {width : Int} {visits : List Nat} {result : Text} {cursor : Int}
    (carried : CarriedIn width above line column visits result cursor) :
    ∃ cursor' : Nat, cursor = cursor' ∧
      CursorKept text ((block above).length + column) visits result cursor' := by
  obtain ⟨above', line', below', column', division', count, mode, rfl, carries⟩ := carried
  obtain ⟨on', within'⟩ := carries.bounds (Int.natCast_nonneg column) (Int.ofNat_le.mpr within)
  obtain ⟨column', rfl⟩ := Int.eq_ofNat_of_zero_le on'
  rw [Int.ofNat_le] at within'
  have inString : (Snapshot.ofText text).inString (block above).length =
      (Mode.code.after (block above')).inString := by
    rw [mode, Text.eq_block_append_unlines division, Snapshot.inString_ofText]
  refine ⟨(block above').length + column', by omega, ?_, ?_, ?_, ?_, ?_⟩
  · exact Text.length_block_add_le division' within'
  · rw [Text.lineNumber_of_lines division' within', Text.lineNumber_of_lines division within, count]
  · rw [indentationEnd_of_lines division within, Text.lineEnd_of_lines division within,
      Text.lineEnd_of_lines division' within']
    intro reached
    have distance := carries.behind (Int.ofNat_le.mpr (Nat.le_of_add_le_add_left reached))
    omega
  · rw [Text.lineStart_of_lines division within, indentationEnd_of_lines division within,
      Text.lineStart_of_lines division' within', indentationEnd_of_lines division' within', inString]
    intro outside before member
    rw [decide_eq_true member] at carries
    have place := carries.inBlanks outside (Int.natCast_nonneg column) (by omega)
    omega
  · rw [Text.lineStart_of_lines division within, Text.lineStart_of_lines division' within', inString]
    intro stays
    have same := carries.column_eq (stays.imp_right decide_eq_false)
    omega

/-- **Re-indenting a region keeps the cursor on its text**, whatever the region and the width, and no
cursor overtakes another one. -/
theorem indentRegion_keeps_cursor (text : Text) (start stop width : Int) :
    (∀ cursor : Nat, cursor ≤ text.length →
      ReindentedBy text start stop (some (cursor : Int)) width
          (regionVisits text start stop (some (cursor : Int)) width) ∧
        ∃ cursor' : Nat, (indentRegion text start stop (some (cursor : Int)) width).2 = cursor' ∧
          CursorKept text cursor (regionVisits text start stop (some (cursor : Int)) width)
            (indentRegion text start stop (some (cursor : Int)) width).1 cursor') ∧
      ∀ cursor cursor' : Int, cursor ≤ cursor' →
        (indentRegion text start stop (some cursor) width).2 ≤
          (indentRegion text start stop (some cursor') width).2 := by
  refine ⟨?_, fun cursor cursor' => indentRegion_cursor_mono text start stop width⟩
  intro cursor inside
  refine ⟨reindentedBy_regionVisits _ _ _ _ _, ?_⟩
  obtain ⟨above, line, below, column, division, rfl, within⟩ := Text.exists_line_of_offset inside
  exact cursorKept_of_carriedIn division within
    (indentRegion_carries division within start stop width)

/-- A cursor in the blanks of a line below one that moves. -/
theorem indentRegion_keeps_cursor_in_blanks :
    8 ≤ "  (a\n      b)".toList.length ∧ (7 : Int) ≤ 8 ∧
      (∃ cursor' : Nat,
        (indentRegion "  (a\n      b)".toList 0 13 (some (8 : Nat)) 2).2 = cursor' ∧
          CursorKept "  (a\n      b)".toList 8
            (regionVisits "  (a\n      b)".toList 0 13 (some (8 : Nat)) 2)
            (indentRegion "  (a\n      b)".toList 0 13 (some (8 : Nat)) 2).1 cursor') ∧
      (indentRegion "  (a\n      b)".toList 0 13 (some 7) 2).2 ≤
        (indentRegion "  (a\n      b)".toList 0 13 (some 8) 2).2 := by
  have kept := indentRegion_keeps_cursor "  (a\n      b)".toList 0 13 2
  exact ⟨by decide, by decide, (kept.1 8 (by decide)).2, kept.2 7 8 (by decide)⟩

end LispEditor
