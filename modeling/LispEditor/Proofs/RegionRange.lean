import LispEditor.Proofs.RegionLines

/-!
# Which lines a region touches

The lines of a range are the line of its first offset and those that start behind it and before its
end. Re-indenting a region touches these lines and no others, but for one case: the end of the region
does not move with the text when it lies in the blanks of its line, so a line that loses blanks may
pull the next ones into the region.

* `visitLines_through`: a pass gets through all lines that start before the end of the region.
* `length_visitLines_iff`: it stops there, unless the last of them overtakes the end.
* `touchesRange_iff`: re-indenting touches the range exactly if its end is not overtaken. If it is, the
  next line is visited too.
* `not_touchesRange_shrunk`: an end that is.
-/

namespace LispEditor

open Text (unlines block)

/-- Whether a line that starts at `lineStart` is one of the range from `start` to `stop`. -/
def InRange (text : Text) (start stop lineStart : Nat) : Prop :=
  lineStart = text.lineStart start ∨ text.lineStart start < lineStart ∧ lineStart < stop

/-- Re-indenting from `start` to `stop` visits the lines of that range, and all others are in the
result as they were. -/
structure TouchesRange (text : Text) (start stop : Nat) (cursor : Option Int) (width : Int) :
    Prop where
  reindented : ReindentedBy text start stop cursor width
    (regionVisits text start stop cursor width)
  lineCount : (indentRegion text start stop cursor width).1.lines.length = text.lines.length
  starts : ∀ visit ∈ regionVisits text start stop cursor width,
    visit ∈ (indentRegion text start stop cursor width).1.lineStarts
  visited : ∀ k lineStart : Nat, text.lineStarts[k]? = some lineStart →
    ((∃ visit ∈ regionVisits text start stop cursor width,
        (indentRegion text start stop cursor width).1.lineStarts[k]? = some visit) ↔
      InRange text start stop lineStart)
  others : ∀ k lineStart : Nat, text.lineStarts[k]? = some lineStart →
    ¬ InRange text start stop lineStart →
      (indentRegion text start stop cursor width).1.lines[k]? = text.lines[k]?

/-- The end of a region is overtaken: it lies in the blanks of a line that is not the last one, and
with the line as it becomes the next one would start before it. -/
def Overtakes (text result : Text) (stop : Nat) : Prop :=
  stop ≤ (Snapshot.ofText text).indentationEnd stop ∧ text.lineNumber stop < text.lines.length ∧
    ∃ line ∈ result.lines[text.lineNumber stop - 1]?, line.length + 1 < stop - text.lineStart stop

/-! ### Up to the end of the region -/

theorem leftBehind_of_blanks_lt {line : Text} {left : Int}
    (behind : (line.takeWhile isIndentation).length < left) (new : Text) :
    leftBehind line new left = left - (line.length + 1) := by
  rw [leftBehind, if_pos behind]
  omega

theorem leftBehind_of_le_blanks {line : Text} {left : Int}
    (within : left ≤ (line.takeWhile isIndentation).length) (new : Text) :
    leftBehind line new left = left - (new.length + 1) := by
  rw [leftBehind, if_neg (Int.not_lt.mpr within)]

/-- Lines below `a`, re-indented below each other. -/
def reindentAll (width : Int) (a : Text) : List Text → List Text
  | [] => []
  | line :: below =>
      reindentedLine width a line ::
        reindentAll width (a ++ reindentedLine width a line ++ ['\n']) below

theorem length_reindentAll (width : Int) (a : Text) (lines : List Text) :
    (reindentAll width a lines).length = lines.length := by
  induction lines generalizing a with
  | nil => rfl
  | cons line below ih => rw [reindentAll, List.length_cons, ih, List.length_cons]

/-- **A pass gets through all lines that end before the region does.** It comes to the line on which
the region ends unless the region ends where that line starts. -/
theorem visitLines_through (width : Int) (a : Text) (middle : List Text) (last : Text)
    (below : List Text) (column : Nat) :
    visitLines width a ((block middle).length + column) (middle ++ last :: below) =
      reindentAll width a middle ++
        if middle = [] ∨ 0 < column then
          visitLines width (a ++ block (reindentAll width a middle)) column (last :: below)
        else [] := by
  induction middle generalizing a with
  | nil => simp [reindentAll]
  | cons line middle ih =>
      have blanks : (line.takeWhile isIndentation).length ≤ line.length :=
        (List.takeWhile_sublist isIndentation).length_le
      have size : (block (line :: middle)).length = line.length + 1 + (block middle).length := by
        rw [Text.block_cons, List.length_append, List.length_cons]
        omega
      have left : leftBehind line (reindentedLine width a line)
          ((block (line :: middle)).length + column) = (block middle).length + column := by
        rw [leftBehind_of_blanks_lt (by omega)]
        omega
      have nonempty : line :: middle ≠ [] := List.cons_ne_nil line middle
      rw [List.cons_append]
      by_cases more : (0 : Int) < (block middle).length + column
      · have reaches : (middle = [] ∨ 0 < column) ↔ (line :: middle = [] ∨ 0 < column) := by
          constructor
          · rintro (rfl | positive)
            · rw [Text.block_nil, List.length_nil] at more
              exact Or.inr (by omega)
            · exact Or.inr positive
          · exact fun either => Or.inr (either.resolve_left nonempty)
        have regroup : a ++ block (reindentAll width a (line :: middle)) =
            a ++ reindentedLine width a line ++ ['\n'] ++
              block (reindentAll width (a ++ reindentedLine width a line ++ ['\n']) middle) := by
          rw [reindentAll, Text.block_cons]
          simp
        rw [visitLines_next (by rw [left]; exact more), left, ih, regroup, reindentAll,
          List.cons_append]
        simp only [reaches]
      · have none : middle = [] :=
          Text.block_eq_nil.mp (List.length_eq_zero_iff.mp (by omega))
        have zero : ¬ 0 < column := by omega
        subst none
        rw [visitLines_last (by rw [left]; exact more),
          if_neg fun either => zero (either.resolve_left nonempty)]
        rfl

section LastLine

variable {width : Int} {a last : Text} {below : List Text} {column : Nat}

/-- Whether a line on which the region ends overtakes that end. -/
def LineOvertakes (last new : Text) (below : List Text) (column : Nat) : Prop :=
  column ≤ (last.takeWhile isIndentation).length ∧ below ≠ [] ∧ new.length + 1 < column

/-- A pass ends with the line on which the region ends, unless that line overtakes the end. -/
theorem length_visitLines_last (within : column ≤ last.length) :
    (visitLines width a column (last :: below)).length = 1 ↔
      ¬ LineOvertakes last (reindentedLine width a last) below column := by
  by_cases blanks : column ≤ (last.takeWhile isIndentation).length
  · have left := leftBehind_of_le_blanks (Int.ofNat_le.mpr blanks) (reindentedLine width a last)
    by_cases shrinks : (reindentedLine width a last).length + 1 < column
    · have more : 0 < leftBehind last (reindentedLine width a last) column := by
        rw [left]
        omega
      cases below with
      | nil =>
          rw [visitLines_single]
          exact ⟨fun _ overtakes => overtakes.2.1 rfl, fun _ => rfl⟩
      | cons next others =>
          rw [visitLines_next more, visitLines]
          refine ⟨fun one => ?_, fun stays => ?_⟩
          · simp only [List.length_cons] at one
            omega
          · exact absurd ⟨blanks, List.cons_ne_nil next others, shrinks⟩ stays
    · have ends : ¬ 0 < leftBehind last (reindentedLine width a last) column := by
        rw [left]
        omega
      rw [visitLines_last ends]
      exact ⟨fun _ overtakes => shrinks overtakes.2.2, fun _ => rfl⟩
  · have ends : ¬ 0 < leftBehind last (reindentedLine width a last) column := by
      rw [leftBehind_of_blanks_lt (by omega)]
      omega
    rw [visitLines_last ends]
    exact ⟨fun _ overtakes => blanks overtakes.1, fun _ => rfl⟩

/-- How many lines of a range are left, if the region ends at `column` of the line behind
`middle`. -/
def linesLeft (middle : List Text) (column : Nat) : Nat :=
  if middle = [] ∨ 0 < column then middle.length + 1 else middle.length

/-- **A pass visits the lines of its range and no more, unless the end is overtaken.** -/
theorem length_visitLines_iff (middle : List Text) (within : column ≤ last.length) :
    (visitLines width a ((block middle).length + column) (middle ++ last :: below)).length =
        linesLeft middle column ↔
      ¬ ∃ line ∈ (linesAfter width a ((block middle).length + column)
          (middle ++ last :: below))[middle.length]?, LineOvertakes last line below column := by
  rw [linesAfter, visitLines_through, linesLeft]
  by_cases reaches : middle = [] ∨ 0 < column
  · rw [if_pos reaches, if_pos reaches]
    have here (rest : List Text) : (reindentAll width a middle ++
        visitLines width (a ++ block (reindentAll width a middle)) column (last :: below) ++
          rest)[middle.length]? =
        some (reindentedLine width (a ++ block (reindentAll width a middle)) last) := by
      rw [List.append_assoc, List.getElem?_append_right (Nat.le_of_eq (length_reindentAll _ _ _)),
        length_reindentAll, Nat.sub_self, visitLines]
      rfl
    rw [here, List.length_append, length_reindentAll, Nat.add_left_cancel_iff,
      length_visitLines_last within]
    refine not_congr ⟨fun overtakes => ⟨_, rfl, overtakes⟩, ?_⟩
    rintro ⟨line, found, overtakes⟩
    rw [Option.some.inj found]
    exact overtakes
  · -- The region ends where the line starts, so nothing overtakes that end.
    have zero : column = 0 := by omega
    rw [if_neg reaches, if_neg reaches, List.append_nil, length_reindentAll]
    refine ⟨fun _ => ?_, fun _ => rfl⟩
    rintro ⟨line, -, -, -, shrinks⟩
    omega

/-- A pass visits the lines of its range at least. -/
theorem linesLeft_le_length_visitLines (middle : List Text) :
    linesLeft middle column ≤
      (visitLines width a ((block middle).length + column) (middle ++ last :: below)).length := by
  rw [visitLines_through, linesLeft, List.length_append, length_reindentAll]
  split
  · rw [visitLines, List.length_cons]
    omega
  · exact Nat.le_add_right _ _

/-- A pass whose end is overtaken visits the line behind its range. -/
theorem lt_length_visitLines (middle : List Text) (within : column ≤ last.length)
    (overtaken : ∃ line ∈ (linesAfter width a ((block middle).length + column)
      (middle ++ last :: below))[middle.length]?, LineOvertakes last line below column) :
    middle.length + 1 <
      (visitLines width a ((block middle).length + column) (middle ++ last :: below)).length := by
  have other := mt (length_visitLines_iff middle within).mp (not_not_intro overtaken)
  obtain ⟨line, _, overtakes⟩ := overtaken
  have reaches : linesLeft middle column = middle.length + 1 :=
    if_pos (.inr (Nat.zero_lt_of_lt overtakes.2.2))
  rw [← reaches]
  exact Nat.lt_of_le_of_ne (linesLeft_le_length_visitLines middle) (Ne.symm other)

end LastLine

/-! ### Lines of the range -/

section Range

variable {text last : Text} {above middle below : List Text} {column : Nat}

/-- The lines of a range are those from the line of `start` to the last one that starts before
`stop`. -/
theorem inRange_iff (division : text.lines = above ++ middle ++ last :: below)
    (within : column ≤ last.length) {start : Nat}
    (lineStart : text.lineStart start = (block above).length) {k : Nat}
    (inside : k < text.lines.length) :
    InRange text start ((block (above ++ middle)).length + column)
        (block (text.lines.take k)).length ↔
      above.length ≤ k ∧ k < above.length + linesLeft middle column := by
  have first : (block above).length = (block (text.lines.take above.length)).length := by
    rw [division, List.append_assoc, List.take_left]
  have ending : (block (above ++ middle)).length =
      (block (text.lines.take (above ++ middle).length)).length := by
    rw [division, List.take_left]
  have next : (block (text.lines.take ((above ++ middle).length + 1))).length =
      (block (above ++ middle)).length + last.length + 1 := by
    rw [division, List.take_length_add_append, List.take_succ_cons, List.take_zero,
      Text.block_concat]
    simp only [List.length_append, List.length_singleton]
  have size : text.lines.length = above.length + middle.length + 1 + below.length := by
    rw [division, List.length_append, List.length_append, List.length_cons]
    omega
  rw [List.length_append] at ending next
  have same := Text.length_block_take_inj (Nat.le_of_lt inside)
    (show above.length ≤ text.lines.length by omega)
  have behind := Text.length_block_take_lt_iff (show above.length ≤ text.lines.length by omega)
    (Nat.le_of_lt inside)
  have before := Text.length_block_take_lt_iff (Nat.le_of_lt inside)
    (show above.length + middle.length ≤ text.lines.length by omega)
  have equal := Text.length_block_take_inj (Nat.le_of_lt inside)
    (show above.length + middle.length ≤ text.lines.length by omega)
  have beyond := Text.length_block_take_lt_iff (Nat.le_of_lt inside)
    (show above.length + middle.length + 1 ≤ text.lines.length by omega)
  have empty : middle = [] ↔ middle.length = 0 := List.length_eq_zero_iff.symm
  rw [InRange, lineStart, linesLeft]
  split
  · next reaches =>
      rw [empty] at reaches
      omega
  · next ends =>
      rw [empty] at ends
      omega

end Range

/-! ### Lines that were visited -/

/-- What visits do to a text: of the lines `old` behind `above`, as many as are in `new` were visited
and became those. -/
structure Visited (text result : Text) (visits : List Nat) (above old new : List Text) : Prop where
  before : text.lines = above ++ old
  after : result.lines = above ++ (new ++ old.drop new.length)
  fewer : new.length ≤ old.length
  visits_eq : visits =
    (List.range new.length).map fun i => (block (result.lines.take (above.length + i))).length

namespace Visited

variable {text result : Text} {visits : List Nat} {above old new : List Text}

theorem lineCount (visited : Visited text result visits above old new) :
    result.lines.length = text.lines.length := by
  have fewer := visited.fewer
  rw [visited.before, visited.after]
  simp only [List.length_append, List.length_drop]
  omega

theorem size (visited : Visited text result visits above old new) :
    text.lines.length = above.length + old.length := by
  rw [visited.before, List.length_append]

/-- The visits are to the lines behind `above`, and to as many as there are in `new`. -/
theorem exists_visit_iff (visited : Visited text result visits above old new) {k : Nat}
    (inside : k < text.lines.length) :
    (∃ visit ∈ visits, result.lineStarts[k]? = some visit) ↔
      above.length ≤ k ∧ k < above.length + new.length := by
  have fewer := visited.fewer
  have size := visited.size
  have count := visited.lineCount
  rw [visited.visits_eq]
  constructor
  · rintro ⟨visit, member, found⟩
    obtain ⟨i, inNew, rfl⟩ := List.mem_map.mp member
    have bound := List.mem_range.mp inNew
    obtain ⟨within, same⟩ := Text.getElem?_lineStarts.mp found
    have place := (Text.length_block_take_inj (Nat.le_of_lt within) (by omega)).mp same
    omega
  · rintro ⟨low, high⟩
    refine ⟨_, List.mem_map.mpr ⟨k - above.length, List.mem_range.mpr (by omega), rfl⟩, ?_⟩
    rw [Text.getElem?_lineStarts, Nat.add_sub_cancel' low]
    exact ⟨by omega, rfl⟩

theorem mem_lineStarts (visited : Visited text result visits above old new) :
    ∀ visit ∈ visits, visit ∈ result.lineStarts := by
  intro visit member
  rw [visited.visits_eq] at member
  obtain ⟨i, inNew, rfl⟩ := List.mem_map.mp member
  have bound := List.mem_range.mp inNew
  have fewer := visited.fewer
  have size := visited.size
  have count := visited.lineCount
  exact List.mem_of_getElem? (Text.getElem?_lineStarts.mpr ⟨by omega, rfl⟩)

/-- Lines that were not visited are in the result as they were. -/
theorem getElem?_of_not_visited (visited : Visited text result visits above old new) {k : Nat}
    (outside : ¬ (above.length ≤ k ∧ k < above.length + new.length)) :
    result.lines[k]? = text.lines[k]? := by
  rw [visited.before, visited.after]
  rcases Nat.lt_or_ge k above.length with before | behind
  · rw [List.getElem?_append_left before, List.getElem?_append_left before]
  · rw [List.getElem?_append_right behind, List.getElem?_append_right behind,
      List.getElem?_append_right (by omega), List.getElem?_drop]
    congr 1
    omega

end Visited

/-- What re-indenting a region does to the lines of a text, if the region begins at `startColumn` of
the line behind `above`. -/
theorem visited_of_place {text line : Text} {above rest : List Text}
    (division : text.lines = above ++ line :: rest) {start stop : Int} {startColumn : Nat}
    (place : Text.clamp text.length (min start stop) = (block above).length + startColumn)
    (within : startColumn ≤ line.length) (cursor : Option Int) (width : Int) :
    Visited text (indentRegion text start stop cursor width).1
      (regionVisits text start stop cursor width) above (line :: rest)
      (visitLines width (block above) (max start stop - (block above).length) (line :: rest)) := by
  have clean : ∀ l ∈ above ++ line :: rest, '\n' ∉ l :=
    fun l member => Text.not_mem_of_mem_lines (division ▸ member)
  obtain ⟨result, visits⟩ := indentRegion_lines division place within cursor width
  have after : (indentRegion text start stop cursor width).1.lines =
      above ++ linesAfter width (block above) (max start stop - (block above).length)
        (line :: rest) := by
    have single : ∀ l ∈ line :: rest, '\n' ∉ l :=
      fun l member => clean l (List.mem_append_right above member)
    rw [result, Text.lines_block_append fun l member => clean l (List.mem_append_left _ member),
      Text.lines_unlines ?_ (newline_not_mem_linesAfter single)]
    rw [← List.length_pos_iff, length_linesAfter]
    exact Nat.succ_pos _
  refine ⟨division, after, visitLines_length_le _ _ _ _, ?_⟩
  rw [visits, after]
  refine List.map_congr_left fun i member => ?_
  have inside := List.mem_range.mp member
  rw [List.take_length_add_append, linesAfter, List.take_append_of_le_length (Nat.le_of_lt inside),
    Text.block_append]

/-- The same for offsets of the text in order. -/
theorem visited_indentRegion {text line : Text} {above rest : List Text}
    (division : text.lines = above ++ line :: rest) {startColumn : Nat}
    (within : startColumn ≤ line.length) {start stop : Nat}
    (start_eq : start = (block above).length + startColumn) (order : start ≤ stop)
    (cursor : Option Int) (width : Int) :
    Visited text (indentRegion text start stop cursor width).1
      (regionVisits text start stop cursor width) above (line :: rest)
      (visitLines width (block above) (stop - (block above).length) (line :: rest)) := by
  have place : Text.clamp text.length (min (start : Int) stop) =
      (block above).length + startColumn := by
    have inside : start ≤ text.length := by
      rw [Text.eq_block_append_column division startColumn, List.length_append,
        Text.length_block_append_take within, start_eq]
      exact Nat.le_add_right _ _
    rw [Int.min_eq_left (Int.ofNat_le.mpr order), Text.clamp_natCast_of_le inside, start_eq]
  have visited := visited_of_place division place within cursor width
  rwa [Int.max_eq_right (Int.ofNat_le.mpr order)] at visited

/-! ### The range of a region -/

section Region

variable {text line last : Text} {above middle rest below : List Text} {startColumn column : Nat}
  {start stop : Nat}

/-- **Re-indenting touches the lines of a range exactly if it visits as many lines as there are in
it.** -/
theorem touchesRange_iff_length (division : text.lines = above ++ line :: rest)
    (range : line :: rest = middle ++ last :: below) (startWithin : startColumn ≤ line.length)
    (within : column ≤ last.length) (start_eq : start = (block above).length + startColumn)
    (stop_eq : stop = (block (above ++ middle)).length + column) (order : start ≤ stop)
    (cursor : Option Int) (width : Int) :
    TouchesRange text start stop cursor width ↔
      (visitLines width (block above) (stop - (block above).length) (line :: rest)).length =
        linesLeft middle column := by
  have visited := visited_indentRegion division startWithin start_eq order cursor width
  have lineStart : text.lineStart start = (block above).length := by
    rw [start_eq, Text.lineStart_of_lines division startWithin]
  have wholeRange : text.lines = above ++ middle ++ last :: below := by
    rw [division, range, List.append_assoc]
  have inRange {k : Nat} (inside : k < text.lines.length) :
      InRange text start stop (block (text.lines.take k)).length ↔
        above.length ≤ k ∧ k < above.length + linesLeft middle column := by
    rw [stop_eq]
    exact inRange_iff wholeRange within lineStart inside
  have size := visited.size
  have fewer := visited.fewer
  have room : linesLeft middle column ≤ (line :: rest).length := by
    rw [range, List.length_append, List.length_cons, linesLeft]
    split <;> omega
  constructor
  · intro touches
    have agree {k : Nat} (inside : k < text.lines.length) :=
      (visited.exists_visit_iff inside).symm.trans
        ((touches.visited k _ (Text.getElem?_lineStarts.mpr ⟨inside, rfl⟩)).trans (inRange inside))
    -- A difference would show at the first line that only one of the two counts has.
    rcases Nat.lt_trichotomy
      (visitLines width (block above) (stop - (block above).length) (line :: rest)).length
      (linesLeft middle column) with fewerVisits | same | moreVisits
    · have := (agree (show above.length + _ < text.lines.length by
        rw [size]; exact Nat.add_lt_add_left (Nat.lt_of_lt_of_le fewerVisits room) _)).mpr
          ⟨Nat.le_add_right _ _, Nat.add_lt_add_left fewerVisits _⟩
      omega
    · exact same
    · have := (agree (show above.length + _ < text.lines.length by
        rw [size]; exact Nat.add_lt_add_left (Nat.lt_of_lt_of_le moreVisits fewer) _)).mp
          ⟨Nat.le_add_right _ _, Nat.add_lt_add_left moreVisits _⟩
      omega
  · intro same
    refine ⟨reindentedBy_regionVisits _ _ _ _ _, visited.lineCount, visited.mem_lineStarts, ?_, ?_⟩
    · intro k lineStart found
      obtain ⟨inside, rfl⟩ := Text.getElem?_lineStarts.mp found
      rw [visited.exists_visit_iff inside, inRange inside, same]
    · intro k lineStart found outside
      obtain ⟨inside, rfl⟩ := Text.getElem?_lineStarts.mp found
      rw [inRange inside, ← same] at outside
      exact visited.getElem?_of_not_visited outside

/-- Where the blanks of a line end. -/
theorem indentationEnd_of_lines (division : text.lines = above ++ line :: below)
    (within : column ≤ line.length) :
    (Snapshot.ofText text).indentationEnd ((block above).length + column : Nat) =
      (block above).length + (line.takeWhile isIndentation).length := by
  have divided : (Snapshot.ofText text).text =
      block above ++ line.take column ++ unlines (line.drop column :: below) := by
    rw [Snapshot.text_ofText]
    exact Text.eq_block_append_column division column
  have place := Snapshot.indentationEnd_append divided (Text.endsLine_block above)
    (Text.newline_not_mem_take division column)
  rwa [Text.length_block_append_take within, ← Text.unlines_append_head, List.take_append_drop,
    takeWhile_unlines] at place

/-- The end of a region is overtaken if the line on which the region ends overtakes it. -/
theorem overtakes_iff (division : text.lines = above ++ last :: below)
    (within : column ≤ last.length) (result : Text) :
    Overtakes text result ((block above).length + column) ↔
      ∃ new ∈ result.lines[above.length]?, LineOvertakes last new below column := by
  have count : above.length + 1 < text.lines.length ↔ below ≠ [] := by
    rw [division, List.length_append, List.length_cons, ← List.length_pos_iff]
    omega
  rw [Overtakes, indentationEnd_of_lines division within, Text.lineNumber_of_lines division within,
    Text.lineStart_of_lines division within, count, Nat.add_sub_cancel, Nat.add_sub_cancel_left,
    Nat.add_le_add_iff_left]
  constructor
  · rintro ⟨inBlanks, more, new, found, shrinks⟩
    exact ⟨new, found, inBlanks, more, shrinks⟩
  · rintro ⟨new, found, inBlanks, more, shrinks⟩
    exact ⟨inBlanks, more, new, found, shrinks⟩

end Region

/-- The lines of two offsets in order. -/
theorem exists_range {text : Text} {start stop : Nat} (order : start ≤ stop)
    (inside : stop ≤ text.length) :
    ∃ above line rest startColumn middle last below column,
      text.lines = above ++ line :: rest ∧ line :: rest = middle ++ last :: below ∧
      startColumn ≤ line.length ∧ column ≤ last.length ∧
      start = (block above).length + startColumn ∧
      stop = (block (above ++ middle)).length + column := by
  obtain ⟨above, line, rest, startColumn, division, start_eq, startWithin⟩ :=
    Text.exists_line_of_offset (Nat.le_trans order inside)
  obtain ⟨upTo, last, below, column, division', stop_eq, within⟩ :=
    Text.exists_line_of_offset inside
  have same := division.symm.trans division'
  rcases List.append_eq_append_iff.mp same with ⟨middle, rfl, range⟩ | ⟨spare, rfl, range⟩
  · exact ⟨above, line, rest, startColumn, middle, last, below, column, division, range,
      startWithin, within, start_eq, stop_eq⟩
  · -- The line of `stop` is not above that of `start`.
    cases spare with
    | nil =>
        rw [List.append_nil] at division start_eq
        exact ⟨upTo, line, rest, startColumn, [], last, below, column, division, range.symm,
          startWithin, within, start_eq, by rw [List.append_nil]; exact stop_eq⟩
    | cons other spare =>
        obtain rfl : last = other := (List.cons.inj range).1
        rw [Text.block_append, Text.block_cons, List.length_append, List.length_append,
          List.length_cons] at start_eq
        omega

/-- **Re-indenting a region touches the lines of its range and no others, exactly if the end of the
region is not overtaken.** If it is, the line below that of the end is visited as well. -/
theorem touchesRange_iff {text : Text} {start stop : Nat} (order : start ≤ stop)
    (inside : stop ≤ text.length) (cursor : Option Int) (width : Int) :
    (TouchesRange text start stop cursor width ↔
        ¬ Overtakes text (indentRegion text start stop cursor width).1 stop) ∧
      (Overtakes text (indentRegion text start stop cursor width).1 stop →
        ∃ visit ∈ regionVisits text start stop cursor width,
          (indentRegion text start stop cursor width).1.lineStarts[text.lineNumber stop]? =
            some visit) := by
  obtain ⟨above, line, rest, startColumn, middle, last, below, column, division, range, startWithin,
    within, start_eq, stop_eq⟩ := exists_range order inside
  have visited := visited_indentRegion division startWithin start_eq order cursor width
  have wholeRange : text.lines = above ++ middle ++ last :: below := by
    rw [division, range, List.append_assoc]
  have left : (stop : Int) - (block above).length = (block middle).length + column := by
    rw [stop_eq, Text.block_append, List.length_append]
    omega
  have result : (indentRegion text start stop cursor width).1.lines[(above ++ middle).length]? =
      (linesAfter width (block above) ((block middle).length + column)
        (middle ++ last :: below))[middle.length]? := by
    rw [visited.after, List.length_append, List.getElem?_append_right (Nat.le_add_right _ _),
      Nat.add_sub_cancel_left, left, range]
    rfl
  have overtaken := overtakes_iff wholeRange within (indentRegion text start stop cursor width).1
  rw [← stop_eq, result] at overtaken
  constructor
  · rw [touchesRange_iff_length division range startWithin within start_eq stop_eq order, left, range,
      length_visitLines_iff middle within, overtaken]
  · intro overtakes
    have more := lt_length_visitLines middle within (overtaken.mp overtakes)
    have number : text.lineNumber stop = above.length + middle.length + 1 := by
      rw [stop_eq, Text.lineNumber_of_lines wholeRange within, List.length_append]
    have exists_below := overtakes.2.1
    rw [number] at exists_below ⊢
    rw [visited.exists_visit_iff exists_below, left, range]
    exact ⟨by omega, by omega⟩

/-- A region that ends in blanks which become fewer, but not so few that the end is overtaken. -/
theorem touchesRange_in_blanks :
    1 ≤ 6 ∧ 6 ≤ "(a\n    b\n    c".toList.length ∧
      TouchesRange "(a\n    b\n    c".toList 1 6 none 2 := by
  have result : (indentRegion "(a\n    b\n    c".toList (1 : Nat) (6 : Nat) none 2).1 =
      "(a\n  b\n    c".toList := by
    have division : Text.lines "(a\n    b\n    c".toList =
        [] ++ "(a".toList :: ["    b".toList, "    c".toList] := by decide
    have place : Text.clamp "(a\n    b\n    c".toList.length (min (1 : Nat) (6 : Nat)) =
        (block []).length + 1 := by decide
    exact (indentRegion_lines division place (by decide) none 2).1.trans (by decide)
  refine ⟨by decide, by decide, (touchesRange_iff (by decide) (by decide) none 2).1.mpr ?_⟩
  rw [result, Overtakes, Snapshot.ofText_eq_snapshot]
  decide

/-- A line that loses eight blanks pulls the next one into a region that ends in them. -/
theorem not_touchesRange_shrunk : ¬ TouchesRange "        a\n  b".toList 0 5 none 2 := by
  have result : (indentRegion "        a\n  b".toList (0 : Nat) (5 : Nat) none 2).1 =
      "a\nb".toList := by
    have division : Text.lines "        a\n  b".toList =
        [] ++ "        a".toList :: ["  b".toList] := by decide
    have place : Text.clamp "        a\n  b".toList.length (min (0 : Nat) (5 : Nat)) =
        (block []).length + 0 := by decide
    exact (indentRegion_lines division place (by decide) none 2).1.trans (by decide)
  intro touches
  have outside : ¬ InRange "        a\n  b".toList 0 5 10 := by
    rw [InRange]
    decide
  have kept := touches.others 1 10 (by decide) outside
  rw [result] at kept
  exact absurd kept (by decide)

end LispEditor
