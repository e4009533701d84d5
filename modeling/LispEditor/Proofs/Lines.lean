import Mathlib.Data.List.TakeWhile
import LispEditor.Motion.Column

/-!
# Texts as lists of lines

A text is its lines with newlines between them, and the text before a line is the block of the lines
above it. Offsets of line starts, line numbers and the searches for newlines are read off such a
division.

* `unlines_lines`, `lines_unlines`: texts and lists of lines are the same thing.
* `EndsLine`: whether a line starts behind a text; such texts are the blocks.
* `lineStarts_eq`: the line starts of a text are the sizes of the blocks above its lines.
* `Snapshot.lineStart_append`, `Snapshot.indentationEnd_append`, `newlineFrom_append`: the places of a
  line in a text that is divided before it.
-/

namespace LispEditor

section Pieces

variable {α : Type} {p : α → Bool} {front back : List α}

/-- What is left when items are dropped begins with one that is not. -/
theorem eq_false_of_mem_head?_dropWhile {item : α} (first : item ∈ (back.dropWhile p).head?) :
    p item = false := by
  have stops := List.head?_dropWhile_not p back
  rw [Option.mem_def] at first
  rw [first] at stops
  exact stops

theorem dropWhile_append_eq (all : ∀ item ∈ front, p item = true)
    (stops : ∀ item ∈ back.head?, p item = false) : (front ++ back).dropWhile p = back := by
  rw [List.dropWhile_append_of_pos all]
  cases back with
  | nil => rfl
  | cons item others =>
      refine List.dropWhile_cons_of_neg ?_
      rw [stops item rfl]
      exact Bool.false_ne_true

theorem takeWhile_append_eq (all : ∀ item ∈ front, p item = true)
    (stops : ∀ item ∈ back.head?, p item = false) : (front ++ back).takeWhile p = front := by
  rw [List.takeWhile_append_of_pos all]
  cases back with
  | nil => exact List.append_nil front
  | cons item others =>
      have stop : ¬ p item = true := by
        rw [stops item rfl]
        exact Bool.false_ne_true
      rw [List.takeWhile_cons_of_neg stop, List.append_nil]

/-- The items up to a place are those up to an earlier one and those between the two. -/
theorem take_eq_take_append {i j : Nat} (le : i ≤ j) (items : List α) :
    items.take j = items.take i ++ (items.take j).drop i := by
  have front : items.take i = (items.take j).take i := by
    rw [List.take_take, Nat.min_eq_left le]
  rw [front, List.take_append_drop]

/-- An item of a list that begins with `part` stands in this part or behind it. -/
theorem in_or_behind {part after : List α} {item : α}
    (same : part ++ after = front ++ item :: back) :
    (∃ rest, part = front ++ item :: rest ∧ back = rest ++ after) ∨
      ∃ more, front = part ++ more ∧ after = more ++ item :: back := by
  rcases List.append_eq_append_iff.mp same with behind | ⟨rest, rfl, split⟩
  · exact .inr behind
  · cases rest with
    | nil => exact .inr ⟨[], by simp, split.symm⟩
    | cons first rest =>
        obtain ⟨rfl, rfl⟩ := List.cons.inj split
        exact .inl ⟨rest, rfl, rfl⟩

theorem exists_behind {part after : List α} {item : α}
    (same : part ++ after = front ++ item :: back) (missing : item ∉ part) :
    ∃ more, front = part ++ more ∧ after = more ++ item :: back := by
  rcases in_or_behind same with ⟨rest, rfl, -⟩ | behind
  · exact absurd (List.mem_append_right front List.mem_cons_self) missing
  · exact behind

theorem exists_behind_cons {first item : α} {after : List α}
    (same : first :: after = front ++ item :: back) (other : item ≠ first) :
    ∃ more, front = first :: more ∧ after = more ++ item :: back :=
  exists_behind (List.singleton_append.trans same) fun member => other (List.mem_singleton.mp member)

end Pieces

namespace Text

/-- Every offset of a text divides it there. -/
theorem exists_append {text : Text} {offset : Nat} (inside : offset ≤ text.length) :
    ∃ a b, text = a ++ b ∧ a.length = offset :=
  ⟨text.take offset, text.drop offset, (List.take_append_drop _ _).symm,
    List.length_take_of_le inside⟩

/-- Two offsets of a text divide it into three pieces. -/
theorem exists_append_append {text : Text} {start stop : Nat} (order : start ≤ stop)
    (inside : stop ≤ text.length) :
    ∃ a old b, text = a ++ old ++ b ∧ a.length = start ∧ (a ++ old).length = stop := by
  obtain ⟨front, b, rfl, rfl⟩ := exists_append inside
  obtain ⟨a, old, rfl, rfl⟩ := exists_append order
  exact ⟨a, old, b, rfl, rfl, rfl⟩

/-- Lines, each with a newline behind it. -/
def block (lines : List Text) : Text :=
  lines.flatMap (· ++ ['\n'])

/-- Lines with newlines between them. -/
def unlines : List Text → Text
  | [] => []
  | [line] => line
  | line :: next :: others => line ++ '\n' :: unlines (next :: others)

/-- Whether a line starts behind a text: the text is empty or ends with a newline. -/
def EndsLine (text : Text) : Prop :=
  ∀ c ∈ text.getLast?, c = '\n'

theorem endsLine_nil : EndsLine [] := by
  simp [EndsLine]

theorem endsLine_append_newline (text : Text) : EndsLine (text ++ ['\n']) := by
  simp [EndsLine]

theorem EndsLine.cases {text : Text} (ends : EndsLine text) :
    text = [] ∨ ∃ line, text = line ++ ['\n'] := by
  rcases List.eq_nil_or_concat text with rfl | ⟨line, c, rfl⟩
  · exact Or.inl rfl
  · have newline : c = '\n' := ends c (by simp)
    exact Or.inr ⟨line, by rw [newline, List.concat_eq_append]⟩

/-- A line starts at an offset: at the start of the text or behind a newline. -/
def StartsLine (text : Text) (offset : Nat) : Prop :=
  offset = 0 ∨ text[offset - 1]? = some '\n'

/-- The text above a line that starts at an offset. -/
theorem StartsLine.exists_above {text : Text} {offset : Nat} (starts : StartsLine text offset) :
    ∃ above below, text = above ++ below ∧ above.length = offset ∧ EndsLine above := by
  rcases starts with rfl | newline
  · exact ⟨[], text, rfl, rfl, endsLine_nil⟩
  · cases offset with
    | zero => exact ⟨[], text, rfl, rfl, endsLine_nil⟩
    | succ last =>
        rw [Nat.add_sub_cancel] at newline
        obtain ⟨inside, here⟩ := List.getElem?_eq_some_iff.mp newline
        refine ⟨text.take (last + 1), text.drop (last + 1), (List.take_append_drop _ text).symm, ?_, ?_⟩
        · rw [List.length_take]
          exact Nat.min_eq_left inside
        · rw [List.take_succ_eq_append_getElem inside, here]
          exact endsLine_append_newline _

/-! ### Blocks -/

@[simp]
theorem block_nil : block [] = [] := rfl

theorem block_cons (line : Text) (others : List Text) :
    block (line :: others) = line ++ '\n' :: block others := by
  simp [block]

theorem block_eq_nil {lines : List Text} : block lines = [] ↔ lines = [] := by
  cases lines with
  | nil => simp
  | cons line others => simp [block_cons]

theorem block_append (above below : List Text) : block (above ++ below) = block above ++ block below :=
  List.flatMap_append

theorem block_concat (above : List Text) (line : Text) :
    block (above ++ [line]) = block above ++ line ++ ['\n'] := by
  simp [block]

theorem endsLine_block (above : List Text) : EndsLine (block above) := by
  rcases List.eq_nil_or_concat above with rfl | ⟨init, line, rfl⟩
  · exact endsLine_nil
  · rw [List.concat_eq_append, block_concat]
    exact endsLine_append_newline _

theorem unlines_cons {line : Text} {others : List Text} (more : others ≠ []) :
    unlines (line :: others) = line ++ '\n' :: unlines others := by
  obtain ⟨next, others, rfl⟩ := List.exists_cons_of_ne_nil more
  rfl

theorem unlines_append (above : List Text) {below : List Text} (more : below ≠ []) :
    unlines (above ++ below) = block above ++ unlines below := by
  induction above with
  | nil => rfl
  | cons line above ih =>
      have follows : above ++ below ≠ [] := by simp [more]
      rw [List.cons_append, unlines_cons follows, ih, block_cons]
      simp

theorem unlines_append_head (front line : Text) (below : List Text) :
    unlines ((front ++ line) :: below) = front ++ unlines (line :: below) := by
  cases below with
  | nil => rfl
  | cons next others =>
      rw [unlines_cons (List.cons_ne_nil _ _), unlines_cons (List.cons_ne_nil _ _),
        List.append_assoc]

/-! ### Dividing a text into lines -/

theorem lines_ne_nil (text : Text) : lines text ≠ [] := by
  cases text with
  | nil => simp [lines]
  | cons c rest =>
      simp only [lines]
      split
      · exact List.cons_ne_nil _ _
      · split <;> exact List.cons_ne_nil _ _

/-- A character that is no newline stands at the front of the first line. -/
theorem lines_cons {c : Char} (other : c ≠ '\n') (rest : Text) :
    lines (c :: rest) = (lines rest).modifyHead (c :: ·) := by
  have more := lines_ne_nil rest
  simp only [lines, beq_iff_eq, other, if_false]
  split
  · next none => exact absurd none more
  · next line others some => rw [some]; rfl

theorem lines_newline (rest : Text) : lines ('\n' :: rest) = [] :: lines rest := rfl

theorem lines_append_newline {line : Text} (single : '\n' ∉ line) (rest : Text) :
    lines (line ++ '\n' :: rest) = line :: lines rest := by
  induction line with
  | nil => rfl
  | cons c line ih =>
      simp only [List.mem_cons, not_or] at single
      rw [List.cons_append, lines_cons (Ne.symm single.1), ih single.2]
      rfl

/-- What contains no newline stands at the front of the first line. -/
theorem lines_append {front : Text} (single : '\n' ∉ front) (rest : Text) :
    lines (front ++ rest) = (lines rest).modifyHead (front ++ ·) := by
  induction front with
  | nil =>
      rw [List.nil_append]
      cases lines rest <;> rfl
  | cons c front ih =>
      simp only [List.mem_cons, not_or] at single
      rw [List.cons_append, lines_cons (Ne.symm single.1), ih single.2]
      cases lines rest <;> rfl

theorem lines_of_single {line : Text} (single : '\n' ∉ line) : lines line = [line] := by
  induction line with
  | nil => rfl
  | cons c line ih =>
      simp only [List.mem_cons, not_or] at single
      rw [lines_cons (Ne.symm single.1), ih single.2]
      rfl

theorem lines_block_append {above : List Text} (single : ∀ line ∈ above, '\n' ∉ line)
    (rest : Text) : lines (block above ++ rest) = above ++ lines rest := by
  induction above with
  | nil => rfl
  | cons line above ih =>
      have others : ∀ line ∈ above, '\n' ∉ line :=
        fun other member => single other (List.mem_cons_of_mem line member)
      rw [block_cons, List.append_assoc, List.cons_append,
        lines_append_newline (single line List.mem_cons_self), ih others]
      rfl

/-- No line contains a newline. -/
theorem not_mem_of_mem_lines {text line : Text} (member : line ∈ lines text) : '\n' ∉ line := by
  induction text generalizing line with
  | nil =>
      rw [lines, List.mem_singleton] at member
      simp [member]
  | cons c rest ih =>
      by_cases newline : c = '\n'
      · subst newline
        rw [lines_newline] at member
        rcases List.mem_cons.mp member with rfl | later
        · exact List.not_mem_nil
        · exact ih later
      · obtain ⟨first, others, split⟩ := List.exists_cons_of_ne_nil (lines_ne_nil rest)
        rw [lines_cons newline, split, List.modifyHead_cons] at member
        rcases List.mem_cons.mp member with rfl | later
        · have clean : '\n' ∉ first := ih (by rw [split]; exact List.mem_cons_self)
          simp [Ne.symm newline, clean]
        · exact ih (by rw [split]; exact List.mem_cons_of_mem first later)

/-- **A text is its lines with newlines between them.** -/
theorem unlines_lines (text : Text) : unlines (lines text) = text := by
  induction text with
  | nil => rfl
  | cons c rest ih =>
      by_cases newline : c = '\n'
      · subst newline
        rw [lines_newline, unlines_cons (lines_ne_nil rest), ih]
        rfl
      · obtain ⟨first, others, split⟩ := List.exists_cons_of_ne_nil (lines_ne_nil rest)
        rw [lines_cons newline, split, List.modifyHead_cons]
        rw [split] at ih
        cases others with
        | nil => rw [← ih]; rfl
        | cons next others => rw [← ih]; rfl

theorem lines_unlines {ls : List Text} (nonempty : ls ≠ []) (single : ∀ line ∈ ls, '\n' ∉ line) :
    lines (unlines ls) = ls := by
  induction ls with
  | nil => exact absurd rfl nonempty
  | cons line others ih =>
      have clean := single line List.mem_cons_self
      cases others with
      | nil => exact lines_of_single clean
      | cons next others =>
          rw [unlines_cons (List.cons_ne_nil next others), lines_append_newline clean,
            ih (List.cons_ne_nil next others)
              fun other member => single other (List.mem_cons_of_mem line member)]

theorem block_eq_unlines {ls : List Text} (nonempty : ls ≠ []) :
    block ls = unlines ls ++ ['\n'] := by
  induction ls with
  | nil => exact absurd rfl nonempty
  | cons line others ih =>
      cases others with
      | nil => simp [block, unlines]
      | cons next others =>
          rw [block_cons, ih (List.cons_ne_nil _ _), unlines_cons (List.cons_ne_nil _ _)]
          simp

/-- A text behind which a line starts is a block of lines. -/
theorem EndsLine.exists_block {text : Text} (ends : EndsLine text) :
    ∃ above, text = block above ∧ ∀ line ∈ above, '\n' ∉ line := by
  rcases ends.cases with rfl | ⟨init, rfl⟩
  · exact ⟨[], rfl, by simp⟩
  · refine ⟨lines init, ?_, fun line => not_mem_of_mem_lines⟩
    rw [block_eq_unlines (lines_ne_nil init), unlines_lines]

/-- The first line of a text, and what follows it. -/
theorem exists_first_line (text : Text) :
    ∃ line tail, text = line ++ tail ∧ '\n' ∉ line ∧ (tail = [] ∨ ∃ rest, tail = '\n' :: rest) := by
  refine ⟨text.takeWhile (· != '\n'), text.dropWhile (· != '\n'),
    List.takeWhile_append_dropWhile.symm, ?_, ?_⟩
  · intro member
    have clean := List.mem_takeWhile_imp member
    simp at clean
  · cases split : text.dropWhile (· != '\n') with
    | nil => exact Or.inl rfl
    | cons c rest =>
        have newline := List.head?_dropWhile_not (· != '\n') text
        rw [split] at newline
        simp only [List.head?_cons, bne_eq_false_iff_eq] at newline
        exact Or.inr ⟨rest, by rw [newline]⟩

/-! ### Line starts and line numbers -/

/-- The line starts behind the newlines of a text that begins at `offset`. -/
def startsFrom (offset : Nat) (text : Text) : List Nat :=
  (text.zipIdx offset).filterMap fun (c, i) => if c == '\n' then some (i + 1) else none

theorem startsFrom_append (offset : Nat) (a b : Text) :
    startsFrom offset (a ++ b) = startsFrom offset a ++ startsFrom (offset + a.length) b := by
  rw [startsFrom, List.zipIdx_append, List.filterMap_append, Nat.add_comm]
  rfl

theorem startsFrom_newline (offset : Nat) (rest : Text) :
    startsFrom offset ('\n' :: rest) = (offset + 1) :: startsFrom (offset + 1) rest := rfl

theorem startsFrom_cons {c : Char} (other : c ≠ '\n') (offset : Nat) (rest : Text) :
    startsFrom offset (c :: rest) = startsFrom (offset + 1) rest := by
  simp [startsFrom, List.zipIdx_cons, other]

theorem startsFrom_single {line : Text} (single : '\n' ∉ line) (offset : Nat) :
    startsFrom offset line = [] := by
  induction line generalizing offset with
  | nil => rfl
  | cons c line ih =>
      simp only [List.mem_cons, not_or] at single
      rw [startsFrom_cons (Ne.symm single.1)]
      exact ih single.2 (offset + 1)

theorem startsFrom_add (offset distance : Nat) (text : Text) :
    startsFrom (offset + distance) text = (startsFrom offset text).map (· + distance) := by
  induction text generalizing offset with
  | nil => rfl
  | cons c rest ih =>
      have tail := ih (offset + 1)
      rw [Nat.add_right_comm] at tail
      by_cases newline : c = '\n'
      · subst newline
        rw [startsFrom_newline, startsFrom_newline, List.map_cons, tail, Nat.add_right_comm]
      · rw [startsFrom_cons newline, startsFrom_cons newline, tail]

theorem lineStarts_append_newline {line : Text} (single : '\n' ∉ line) (rest : Text) :
    lineStarts (line ++ '\n' :: rest) =
      0 :: (lineStarts rest).map (· + (line.length + 1)) := by
  show 0 :: startsFrom 0 (line ++ '\n' :: rest) = _
  rw [startsFrom_append, startsFrom_single single, startsFrom_newline, Nat.add_assoc,
    startsFrom_add, Nat.zero_add, List.nil_append]
  show _ = 0 :: (0 :: startsFrom 0 rest).map _
  rw [List.map_cons, Nat.zero_add]

theorem lineStarts_of_single {line : Text} (single : '\n' ∉ line) : lineStarts line = [0] := by
  show 0 :: startsFrom 0 line = _
  rw [startsFrom_single single]

/-- **The line starts of a text are the sizes of the blocks above its lines.** -/
theorem lineStarts_unlines {ls : List Text} (nonempty : ls ≠ [])
    (single : ∀ line ∈ ls, '\n' ∉ line) :
    lineStarts (unlines ls) = (List.range ls.length).map fun i => (block (ls.take i)).length := by
  induction ls with
  | nil => exact absurd rfl nonempty
  | cons line others ih =>
      have clean := single line List.mem_cons_self
      cases others with
      | nil => exact lineStarts_of_single clean
      | cons next others =>
          have more := List.cons_ne_nil next others
          have size : (line :: next :: others).length = (next :: others).length + 1 := rfl
          rw [unlines_cons more, lineStarts_append_newline clean,
            ih more fun other member => single other (List.mem_cons_of_mem line member), size,
            List.range_succ_eq_map, List.map_cons, List.map_map, List.map_map]
          refine congrArg (List.cons 0) (List.map_congr_left fun i _ => ?_)
          simp only [Function.comp_apply, List.take_succ_cons, block_cons, List.length_append,
            List.length_cons]
          omega

theorem lineStarts_eq (text : Text) :
    lineStarts text =
      (List.range (lines text).length).map fun i => (block ((lines text).take i)).length := by
  conv => lhs; rw [← unlines_lines text]
  exact lineStarts_unlines (lines_ne_nil text) fun line => not_mem_of_mem_lines

theorem getElem?_lineStarts {text : Text} {i start : Nat} :
    (lineStarts text)[i]? = some start ↔
      i < (lines text).length ∧ (block ((lines text).take i)).length = start := by
  rw [lineStarts_eq, List.getElem?_map, Option.map_eq_some_iff]
  constructor
  · rintro ⟨j, found, size⟩
    rw [List.getElem?_eq_some_iff] at found
    obtain ⟨inside, same⟩ := found
    rw [List.length_range] at inside
    rw [List.getElem_range] at same
    exact ⟨inside, by rw [same]; exact size⟩
  · rintro ⟨inside, size⟩
    exact ⟨i, List.getElem?_range inside, size⟩

/-- A text divided before one of its lines. -/
theorem eq_block_append {text : Text} {i : Nat} (inside : i < (lines text).length) :
    text = block ((lines text).take i) ++ unlines ((lines text).drop i) := by
  have more : (lines text).drop i ≠ [] := by
    rw [Ne, List.drop_eq_nil_iff]
    omega
  rw [← unlines_append _ more, List.take_append_drop, unlines_lines]

/-- Blocks of more lines are longer. -/
theorem length_block_take_lt {ls : List Text} {i j : Nat} (more : i < j) (inside : j ≤ ls.length) :
    (block (ls.take i)).length < (block (ls.take j)).length := by
  have pieces := take_eq_take_append (Nat.le_of_lt more) ls
  have nonempty : (ls.take j).drop i ≠ [] := by
    rw [Ne, List.drop_eq_nil_iff, List.length_take]
    omega
  have longer := List.length_pos_iff.mpr (mt block_eq_nil.mp nonempty)
  rw [pieces, block_append, List.length_append]
  omega

/-- Lines are in the order of the sizes of the blocks above them. -/
theorem length_block_take_lt_iff {ls : List Text} {i j : Nat} (insideI : i ≤ ls.length)
    (insideJ : j ≤ ls.length) :
    (block (ls.take i)).length < (block (ls.take j)).length ↔ i < j := by
  refine ⟨fun shorter => ?_, fun before => length_block_take_lt before insideJ⟩
  rcases Nat.lt_trichotomy i j with before | rfl | behind
  · exact before
  · exact absurd shorter (Nat.lt_irrefl _)
  · have := length_block_take_lt behind insideI
    omega

theorem length_block_take_inj {ls : List Text} {i j : Nat} (insideI : i ≤ ls.length)
    (insideJ : j ≤ ls.length) :
    (block (ls.take i)).length = (block (ls.take j)).length ↔ i = j := by
  have less := length_block_take_lt_iff insideI insideJ
  have greater := length_block_take_lt_iff insideJ insideI
  omega

/-- A line start stands below some of the lines. -/
theorem exists_line_of_mem_lineStarts {text : Text} {start : Nat} (member : start ∈ lineStarts text) :
    ∃ above line below, lines text = above ++ line :: below ∧ (block above).length = start := by
  obtain ⟨i, found⟩ := List.mem_iff_getElem?.mp member
  obtain ⟨inside, rfl⟩ := getElem?_lineStarts.mp found
  refine ⟨(lines text).take i, (lines text)[i], (lines text).drop (i + 1), ?_, rfl⟩
  rw [List.getElem_cons_drop, List.take_append_drop]

theorem count_block {above : List Text} (single : ∀ line ∈ above, '\n' ∉ line) :
    (block above).count '\n' = above.length := by
  induction above with
  | nil => rfl
  | cons line above ih =>
      have clean := List.count_eq_zero_of_not_mem (single line List.mem_cons_self)
      rw [block_cons, List.count_append, List.count_cons_self, clean,
        ih fun other member => single other (List.mem_cons_of_mem line member), List.length_cons]
      omega

theorem count_newline (text : Text) : text.count '\n' + 1 = (lines text).length := by
  induction text with
  | nil => rfl
  | cons c rest ih =>
      by_cases newline : c = '\n'
      · subst newline
        rw [List.count_cons_self, ih, lines_newline, List.length_cons]
      · rw [List.count_cons_of_ne newline, ih, lines_cons newline, List.length_modifyHead]

/-! ### Searches -/

theorem tailLength_append {a line : Text} (ends : EndsLine a) (single : '\n' ∉ line) :
    tailLength (a ++ line) = line.length := by
  have clean : ∀ c ∈ line.reverse, (c != '\n') = true := by
    intro c member
    have other : c ≠ '\n' := fun same => single (same ▸ List.mem_reverse.mp member)
    simpa using other
  have stops : (a.reverse).takeWhile (· != '\n') = [] := by
    rcases ends.cases with rfl | ⟨init, rfl⟩
    · rfl
    · simp
  rw [tailLength, List.reverse_append, List.takeWhile_append_of_pos clean, stops, List.append_nil,
    List.length_reverse]

/-- The start of the line that a division of a text shows. -/
theorem lineStart_append {a line : Text} (ends : EndsLine a) (single : '\n' ∉ line) (rest : Text) :
    lineStart (a ++ line ++ rest) (a ++ line).length = a.length := by
  rw [lineStart, List.take_left, tailLength_append ends single, List.length_append]
  omega

/-- Every offset of a text divides it so. -/
theorem exists_line_at {text : Text} {offset : Nat} (inside : offset ≤ text.length) :
    ∃ a line rest, text = a ++ line ++ rest ∧ (a ++ line).length = offset ∧ EndsLine a ∧
      '\n' ∉ line := by
  have pieces : text.take offset =
      ((text.take offset).reverse.dropWhile (· != '\n')).reverse ++
        ((text.take offset).reverse.takeWhile (· != '\n')).reverse := by
    rw [← List.reverse_append, List.takeWhile_append_dropWhile, List.reverse_reverse]
  refine ⟨((text.take offset).reverse.dropWhile (· != '\n')).reverse,
    ((text.take offset).reverse.takeWhile (· != '\n')).reverse, text.drop offset, ?_, ?_, ?_, ?_⟩
  · rw [← pieces, List.take_append_drop]
  · rw [← pieces, List.length_take]
    exact Nat.min_eq_left inside
  · intro c member
    have newline := List.head?_dropWhile_not (· != '\n') (text.take offset).reverse
    rw [List.getLast?_reverse, Option.mem_def] at member
    rw [member] at newline
    simpa using newline
  · intro member
    have clean := List.mem_takeWhile_imp (List.mem_reverse.mp member)
    simp at clean

/-- A word without newlines stands on one line of a text. -/
theorem exists_line_of_word (lead : Text) {word : Text} (single : '\n' ∉ word) (rest : Text) :
    ∃ above before after below,
      lines (lead ++ (word ++ rest)) = above ++ (before ++ (word ++ after)) :: below ∧
        lead = block above ++ before := by
  obtain ⟨a, before, tail, division, length, ends, clean⟩ := exists_line_at (Nat.le_refl lead.length)
  have upToLead : a ++ before <+: lead := ⟨tail, division.symm⟩
  obtain ⟨above, rfl, singles⟩ := ends.exists_block
  obtain ⟨after, below, split⟩ := List.exists_cons_of_ne_nil (lines_ne_nil rest)
  have whole := upToLead.eq_of_length length
  refine ⟨above, before, after, below, ?_, whole.symm⟩
  rw [← whole, List.append_assoc, lines_block_append singles, lines_append clean, lines_append single,
    split, List.modifyHead_cons, List.modifyHead_cons]

/-- The line of an offset, and the column of the offset on it. -/
theorem exists_line_of_offset {text : Text} {offset : Nat} (inside : offset ≤ text.length) :
    ∃ above line below column, lines text = above ++ line :: below ∧
      offset = (block above).length + column ∧ column ≤ line.length := by
  obtain ⟨front, rest, rfl, rfl⟩ := exists_append inside
  obtain ⟨above, before, after, below, division, rfl⟩ :=
    exists_line_of_word front List.not_mem_nil rest
  refine ⟨above, before ++ after, below, before.length, division, List.length_append, ?_⟩
  rw [List.length_append]
  exact Nat.le_add_right _ _

section LineOfOffset

variable {text line : Text} {above below : List Text} {column : Nat}

/-- A text divided before one of its lines. -/
theorem eq_block_append_unlines (division : lines text = above ++ line :: below) :
    text = block above ++ unlines (line :: below) := by
  rw [← unlines_append above (List.cons_ne_nil line below), ← division, unlines_lines]

/-- A text divided at a column of one of its lines. -/
theorem eq_block_append_column (division : lines text = above ++ line :: below) (column : Nat) :
    text = block above ++ line.take column ++ unlines (line.drop column :: below) := by
  rw [List.append_assoc, ← unlines_append_head, List.take_append_drop]
  exact eq_block_append_unlines division

theorem newline_not_mem_below (division : lines text = above ++ line :: below) :
    ∀ l ∈ line :: below, '\n' ∉ l := by
  intro l member
  have inText : l ∈ lines text := by
    rw [division]
    exact List.mem_append_right above member
  exact not_mem_of_mem_lines inText

theorem newline_not_mem_take (division : lines text = above ++ line :: below) (column : Nat) :
    '\n' ∉ line.take column :=
  fun member => newline_not_mem_below division line List.mem_cons_self (List.mem_of_mem_take member)

theorem length_block_append_take (within : column ≤ line.length) :
    (block above ++ line.take column).length = (block above).length + column := by
  rw [List.length_append, List.length_take, Nat.min_eq_left within]

theorem lineStart_of_lines (division : lines text = above ++ line :: below)
    (within : column ≤ line.length) :
    lineStart text ((block above).length + column) = (block above).length := by
  rw [← length_block_append_take within, eq_block_append_column division column]
  exact lineStart_append (endsLine_block above) (newline_not_mem_take division column) _

theorem lineNumber_of_lines (division : lines text = above ++ line :: below)
    (within : column ≤ line.length) :
    lineNumber text ((block above).length + column) = above.length + 1 := by
  have single : ∀ l ∈ above, '\n' ∉ l := by
    intro l member
    have inText : l ∈ lines text := by
      rw [division]
      exact List.mem_append_left _ member
    exact not_mem_of_mem_lines inText
  rw [← length_block_append_take within, eq_block_append_column division column, lineNumber,
    List.take_left, List.count_append, count_block single,
    List.count_eq_zero_of_not_mem (newline_not_mem_take division column)]

end LineOfOffset

theorem findIdx?_newline {line : Text} (single : '\n' ∉ line) :
    line.findIdx? (· == '\n') = none := by
  rw [List.findIdx?_eq_none_iff]
  intro c member
  have other : c ≠ '\n' := fun same => single (same ▸ member)
  simpa using other

/-- Looking for the end of the line that starts behind a text. -/
theorem newlineFrom_append (a : Text) {line : Text} (single : '\n' ∉ line) (rest : Text) :
    newlineFrom (a ++ line ++ '\n' :: rest) a.length = some (a ++ line).length := by
  have inside : a.length ≤ (a ++ line ++ '\n' :: rest).length := by
    simp only [List.length_append]
    omega
  rw [newlineFrom, resolve_natCast_of_le inside, List.append_assoc, List.drop_left,
    List.findIdx?_append, findIdx?_newline single, List.length_append]
  simp [List.findIdx?_cons, Nat.add_comm]

theorem newlineFrom_last (a : Text) {line : Text} (single : '\n' ∉ line) :
    newlineFrom (a ++ line) a.length = none := by
  have inside : a.length ≤ (a ++ line).length := by
    simp only [List.length_append]
    omega
  rw [newlineFrom, resolve_natCast_of_le inside, List.drop_left, findIdx?_newline single]
  rfl

end Text

/-! ### Places in a snapshot -/

namespace Snapshot

variable {s : Snapshot} {a line rest : Text}

theorem text_ofText (t : Text) : (ofText t).text = t :=
  text_scan t false

theorem clamp_of_le {offset : Nat} (inside : offset ≤ s.text.length) :
    s.clamp (offset : Int) = offset := by
  rw [length_text] at inside
  exact Text.clamp_natCast_of_le inside

theorem clamp_append (division : s.text = a ++ rest) : s.clamp (a.length : Int) = a.length := by
  refine clamp_of_le ?_
  rw [division, List.length_append]
  exact Nat.le_add_right _ _

/-- The line of an offset starts where the division of the text says. -/
theorem lineStart_append (division : s.text = a ++ line ++ rest) (ends : Text.EndsLine a)
    (single : '\n' ∉ line) : s.lineStart ((a ++ line).length : Nat) = a.length := by
  rw [lineStart, clamp_append division, division, Text.lineStart_append ends single]

theorem lineStart_of_endsLine (division : s.text = a ++ rest) (ends : Text.EndsLine a) :
    s.lineStart (a.length : Nat) = a.length := by
  have empty : s.text = a ++ [] ++ rest := by rw [division, List.append_nil]
  have starts := lineStart_append empty ends List.not_mem_nil
  rwa [List.append_nil] at starts

theorem indentationEnd_append (division : s.text = a ++ line ++ rest) (ends : Text.EndsLine a)
    (single : '\n' ∉ line) :
    s.indentationEnd ((a ++ line).length : Nat) =
      a.length + ((line ++ rest).takeWhile isIndentation).length := by
  rw [indentationEnd, lineStart_append division ends single, division, List.append_assoc,
    List.drop_left]

theorem indentationEnd_of_endsLine (division : s.text = a ++ rest) (ends : Text.EndsLine a) :
    s.indentationEnd (a.length : Nat) = a.length + (rest.takeWhile isIndentation).length := by
  rw [indentationEnd, lineStart_of_endsLine division ends, division, List.drop_left]

/-- The column of an offset is the width of what stands before it on its line. -/
theorem columnAt_append (division : s.text = a ++ line ++ rest) (ends : Text.EndsLine a)
    (single : '\n' ∉ line) : s.columnAt ((a ++ line).length : Nat) = textWidth line := by
  simp only [columnAt, clamp_append division, lineStart_append division ends single]
  rw [division, List.take_left, List.drop_left]

end Snapshot

end LispEditor
