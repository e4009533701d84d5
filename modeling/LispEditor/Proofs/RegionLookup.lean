import LispEditor.Indent.Bounded
import LispEditor.Proofs.MotionLookup
import LispEditor.Proofs.RegionWidth

/-!
# A region pass that looks characters up

The pass through a region is written down for tables: every character is looked up at its offset, a
look-up outside a table fails, spaces for a column that is no index fail too, edits are spliced into
each table for itself, and nothing bounds the number of turns. `TablePass.Runs` says that a pass
ends, by listing its turns; in it no look-up fails.

* `Tables.adviseInside_tables`, `RegionPass.Faithful.editLine_tables`: no look-up for a line fails.
* `RegionPass.Faithful.turn_tables`: a turn does what a visit of a region pass does.
* `RegionPass.Faithful.exists_runs`: a pass takes one turn for each line that it comes to, so it ends.
* `indentRegion_runs`: for every text, region, cursor and width.
* `indentRegionWithin_far_left`: a width with which a region is given up.
-/

namespace LispEditor

/-- Why a turn fails: a character is looked up that is not there, or a column is no index. -/
inductive TurnError where
  | offset (error : OffsetError)
  | column (error : ColumnError)
  deriving DecidableEq, Repr

namespace Tables

/-! ### Lines -/

/-- The character at `offset`, if there is one. -/
def charAt (t : Tables) (offset : Int) : Except OffsetError (Option Char) :=
  if 0 ≤ offset ∧ offset < t.text.length then do
    let char ← lookUp t.text offset
    .ok (some char)
  else .ok none

/-- Where the line of `offset` starts. -/
def lineStart (t : Tables) (offset : Int) : Nat :=
  Text.lineStart t.text (t.clamp offset)

/-- Where the blanks at the start of the line of `offset` end. -/
def indentationEnd (t : Tables) (offset : Int) : Except OffsetError Nat :=
  t.skipForward (fun cell => isIndentation cell.char) (t.lineStart offset)

/-- The column of `offset` on its line. -/
def columnAt (t : Tables) (offset : Int) : Nat :=
  textWidth ((t.text.take (t.clamp offset)).drop (t.lineStart (t.clamp offset)))

/-- The column at which the line of `offset` has its first character that is no blank. -/
def indentationColumn (t : Tables) (offset : Int) : Except OffsetError Nat := do
  let stop ← t.indentationEnd offset
  .ok (t.columnAt stop)

/-- Whether `offset` lies behind the opening quote of a string and not behind its closing quote. -/
def inString (t : Tables) (offset : Int) : Except OffsetError Bool :=
  match t.clamp offset with
  | 0 => .ok false
  | last + 1 => do
      match ← t.spanAt last with
      | none => .ok false
      | some span =>
          if span.start < last + 1 then
            if last + 1 < span.stop then .ok true else t.isOpenString span
          else .ok false

/-! ### Advice -/

/-- The start of the first element of the group at `opener`, if it lies before `limit`. -/
def firstElement (t : Tables) (opener limit : Int) : Except OffsetError (Option Int) := do
  match ← t.intoGroup opener with
  | none => .ok none
  | some inside =>
      match ← t.forward inside with
      | none => .ok none
      | some stop => do
          let start ← t.backward stop
          .ok (start.filter fun start => decide (start < limit))

/-- One indent width past the indentation of the line of `opener`. -/
def bodyColumn (t : Tables) (opener width : Int) : Except OffsetError Int := do
  let column ← t.indentationColumn opener
  .ok (column + width)

/-- The advice of the group at `opener` for the line that starts at `lineStart`. -/
def adviseInside (t : Tables) (opener : Option Int) (lineStart width : Int) :
    Except OffsetError Advice :=
  match opener with
  | none => .ok .topLevel
  | some opener => do
      match ← t.charAt opener with
      | some '(' => do
          let column ← t.bodyColumn opener width
          .ok (.column column)
      | some '[' | some '{' => do
          match ← t.firstElement opener lineStart with
          | none => do
              let column ← t.bodyColumn opener width
              .ok (.column column)
          | some start => .ok (.column (t.columnAt start))
      | _ => .ok .noRule

/-- The stack of open groups at `stop`, if it is `stack` at `offset`. -/
def stepTo (t : Tables) (stop : Nat) (stack : List Nat) (offset : Nat) :
    Except OffsetError (List Nat) :=
  if offset < stop then do
    let cell ← t.cell offset
    t.stepTo stop (OpenGroups.stepCell stack offset cell) (offset + 1)
  else .ok stack
termination_by stop - offset

/-- The groups with all characters before `offset` seen. -/
def advance (t : Tables) (groups : OpenGroups) (offset : Nat) : Except OffsetError OpenGroups := do
  let stack ← t.stepTo offset groups.stack groups.reached
  .ok ⟨stack, max groups.reached offset⟩

/-! ### Edits -/

/-- What the edit for the line that starts at `start` is made of: where its blanks end and, unless it
begins in a string, the groups once it is reached and their advice. -/
def plan (t : Tables) (groups : OpenGroups) (start : Nat) (width : Int) :
    Except OffsetError (Nat × Option (OpenGroups × Advice)) := do
  let stop ← t.indentationEnd start
  if ← t.inString start then .ok (stop, none)
  else do
    let groups ← t.advance groups start
    let advice ← t.adviseInside (groups.innermost?.map Int.ofNat) start width
    .ok (stop, some (groups, advice))

/-- The edit for the line that starts at `start`, and the groups once that line is reached. A line
that is not at its column gets the spaces for it. -/
def editLine (limit : Nat) (t : Tables) (groups : OpenGroups) (start : Nat) (width cursor : Int) :
    Except TurnError (IndentEdit × OpenGroups) := do
  let (stop, planned) ← (t.plan groups start width).mapError .offset
  let blanks := (t.text.take stop).drop start
  match planned with
  | none => .ok (⟨start, stop, blanks, cursor, false⟩, groups)
  | some (groups, advice) => do
      let changed := (t.columnAt stop : Int) != advice.target
      let indent ←
        if changed then (spacesWithin limit advice.target).mapError .column else .ok blanks
      .ok (⟨start, stop, indent, moveCursor start stop indent.length cursor, changed⟩, groups)

/-- Replaces the blanks `[start, stop)` by `blank`, in each table for itself. -/
def replaceBlank (t : Tables) (start stop : Int) (blank : Text) : Tables :=
  let distance := blank.length - (stop - start)
  let before := partitionPoint (fun span => decide (span.start < stop)) t.strings
  { text := Text.splice t.text start stop blank
    kinds := Text.splice t.kinds start stop (blank.map fun _ => .code)
    strings := t.strings.take before ++ (t.strings.drop before).map (·.shift distance)
    endsInString := t.endsInString }

/-! ### The tables of a text -/

theorem charAt_tables (s : Snapshot) (offset : Int) :
    s.tables.charAt offset = .ok (s.charAt? offset) := by
  have size := length_text_tables s
  rw [charAt, Snapshot.charAt?, Snapshot.cellAt?]
  split
  · next inside =>
      obtain ⟨place, rfl⟩ := Int.eq_ofNat_of_zero_le inside.1
      obtain ⟨before, behind, division, rfl⟩ : ∃ before behind, s.cells = before ++ behind ∧
          before.length = place := Snapshot.exists_division (by omega)
      cases behind with
      | nil => exact absurd inside.2 (by simp [size, Snapshot.size, division])
      | cons cell behind =>
          have char : s.tables.text[before.length]? = some cell.char := by
            rw [show s.tables.text = s.cells.map Cell.char from rfl, List.getElem?_map,
              Snapshot.getElem?_cells division]
            rfl
          rw [lookUp_natCast char, ok_bind, if_pos inside.1, Int.toNat_natCast,
            Snapshot.getElem?_cells division]
          rfl
  · next outside =>
      split
      · next nonneg =>
          have beyond : s.cells.length ≤ offset.toNat := by
            rw [size, Snapshot.size] at outside
            omega
          rw [List.getElem?_eq_none beyond]
          rfl
      · rfl

theorem lineStart_tables (s : Snapshot) (offset : Int) :
    s.tables.lineStart offset = s.lineStart offset := by
  rw [lineStart, clamp_tables]
  rfl

theorem columnAt_tables (s : Snapshot) (offset : Int) :
    s.tables.columnAt offset = s.columnAt offset := by
  rw [columnAt, clamp_tables, lineStart_tables]
  rfl

theorem indentationEnd_tables (s : Snapshot) (offset : Int) :
    s.tables.indentationEnd offset = .ok (s.indentationEnd offset) := by
  have inside : s.lineStart offset ≤ s.size :=
    Nat.le_trans (Nat.sub_le _ _) (Text.clamp_le s.size offset)
  obtain ⟨before, behind, division, place⟩ := Snapshot.exists_division inside
  have below : s.text.drop before.length = behind.map Cell.char := by
    rw [Snapshot.text, ← List.map_drop, division, List.drop_left]
  rw [indentationEnd, lineStart_tables, Snapshot.indentationEnd, ← place, skipForward_tables division,
    below, List.takeWhile_map, List.length_map, List.length_append]
  rfl

theorem inString_tables (text : Text) (offset : Int) :
    (Snapshot.ofText text).tables.inString offset = .ok ((Snapshot.ofText text).inString offset) := by
  rw [inString, Snapshot.inString, clamp_tables]
  cases (Snapshot.ofText text).clamp offset with
  | zero => rfl
  | succ last =>
      simp only [spanAt_tables, ok_bind]
      cases (Snapshot.ofText text).stringSpan? last with
      | none => rfl
      | some span =>
          simp only [isOpenString_tables]
          by_cases begun : span.start < last + 1
          · by_cases more : last + 1 < span.stop <;> simp [begun, more]
          · simp [begun]

theorem firstElement_tables (text : Text) (opener limit : Int) :
    (Snapshot.ofText text).tables.firstElement opener limit =
      .ok ((Snapshot.ofText text).firstElement? opener limit) := by
  simp only [firstElement, Snapshot.firstElement?, intoGroup_tables, ok_bind]
  cases (Snapshot.ofText text).intoGroup? opener with
  | none => rfl
  | some inside =>
      simp only [forward_tables, ok_bind, Option.bind_some]
      cases (Snapshot.ofText text).forward? inside with
      | none => rfl
      | some stop =>
          simp only [backward_tables, ok_bind, Option.bind_some]

theorem bodyColumn_tables (s : Snapshot) (opener width : Int) :
    s.tables.bodyColumn opener width = .ok (s.bodyColumn opener width) := by
  rw [bodyColumn, indentationColumn, indentationEnd_tables, ok_bind, ok_bind, columnAt_tables]
  rfl

/-- **No look-up for the advice of a group fails.** -/
theorem adviseInside_tables (text : Text) (opener : Option Int) (lineStart width : Int) :
    (Snapshot.ofText text).tables.adviseInside opener lineStart width =
      .ok ((Snapshot.ofText text).adviseInside opener lineStart width) := by
  cases opener with
  | none => rfl
  | some opener =>
      simp only [adviseInside, Snapshot.adviseInside, charAt_tables, ok_bind, bodyColumn_tables,
        firstElement_tables, columnAt_tables]
      generalize (Snapshot.ofText text).charAt? opener = bracket
      by_cases round : bracket = some '('
      · rw [round]
        rfl
      by_cases square : bracket = some '['
      · rw [square]
        cases (Snapshot.ofText text).firstElement? opener lineStart <;> rfl
      by_cases curly : bracket = some '{'
      · rw [curly]
        cases (Snapshot.ofText text).firstElement? opener lineStart <;> rfl
      simp

theorem stepTo_tables {s : Snapshot} {before between behind : List Cell}
    (division : s.cells = before ++ between ++ behind) (stack : List Nat) :
    s.tables.stepTo (before ++ between).length stack before.length =
      .ok (OpenGroups.stepCells stack before.length between) := by
  induction between generalizing before stack with
  | nil =>
      rw [stepTo, if_neg (by simp)]
      rfl
  | cons cell between ih =>
      have here : s.cells = before ++ cell :: (between ++ behind) := by simp [division]
      have next : s.cells = (before ++ [cell]) ++ between ++ behind := by simp [division]
      have place : (before ++ [cell]).length = before.length + 1 := by simp
      have further := ih next (OpenGroups.stepCell stack before.length cell)
      rw [place, List.append_assoc, List.singleton_append] at further
      rw [stepTo, if_pos (by simp), cell_tables here, ok_bind, further]
      rfl

theorem advance_tables {s : Snapshot} {groups : OpenGroups} {offset : Nat}
    (ahead : groups.reached ≤ offset) (inside : offset ≤ s.size) :
    s.tables.advance groups offset = .ok (groups.advance s offset) := by
  have front := take_eq_take_append ahead s.cells
  have division : s.cells = s.cells.take groups.reached ++
      (s.cells.take offset).drop groups.reached ++ s.cells.drop offset := by
    rw [← front, List.take_append_drop]
  have stack := stepTo_tables division groups.stack
  rw [← front, List.length_take_of_le inside, List.length_take_of_le (Nat.le_trans ahead inside)]
    at stack
  rw [advance, stack, ok_bind]
  rfl

theorem replaceBlank_tables (s : Snapshot) (start stop : Int) (blank : Text) :
    s.tables.replaceBlank start stop blank = (s.replaceBlank start stop blank).tables := by
  simp [replaceBlank, Snapshot.replaceBlank, Snapshot.tables, Snapshot.text, Snapshot.kinds,
    Text.splice, Text.sliceTo, Text.sliceFrom, Function.comp_def]

end Tables

/-! ### Turns -/

/-- A pass through a region over tables. -/
structure TablePass where
  tables : Tables
  groups : OpenGroups
  cursor : Int
  stop : Int
  deriving DecidableEq, Repr

namespace TablePass

/-- One turn: re-indents the line of `offset`. Answers the pass behind it and, if the region goes that
far, where the next line starts. -/
def turn (limit : Nat) (width : Int) (pass : TablePass) (offset : Int) :
    Except TurnError (TablePass × Option Nat) := do
  let start := pass.tables.lineStart offset
  let (edit, groups) ← pass.tables.editLine limit pass.groups start width pass.cursor
  let tables :=
    if edit.changed then pass.tables.replaceBlank edit.start edit.stop edit.indent else pass.tables
  let stop := if pass.stop > edit.stop then pass.stop + edit.delta else pass.stop
  let next := ((Text.newlineFrom tables.text edit.start).map (· + 1)).filter fun next : Nat =>
    decide ((next : Int) < stop)
  .ok (⟨tables, groups, edit.cursor, stop⟩, next)

/-- A pass that begins at `offset` comes to its result after the turns listed: each with the pass as it
was before and the offset it was taken at. No look-up fails, but the last turn may come to a column
that is no index. -/
inductive Runs (limit : Nat) (width : Int) :
    TablePass → Int → List (TablePass × Int) → Except ColumnError TablePass → Prop where
  | last {pass done : TablePass} {offset : Int}
      (turn : pass.turn limit width offset = .ok (done, none)) :
      Runs limit width pass offset [(pass, offset)] (.ok done)
  | stuck {pass : TablePass} {offset : Int} {error : ColumnError}
      (turn : pass.turn limit width offset = .error (.column error)) :
      Runs limit width pass offset [(pass, offset)] (.error error)
  | next {pass after : TablePass} {offset : Int} {place : Nat} {turns : List (TablePass × Int)}
      {result : Except ColumnError TablePass}
      (turn : pass.turn limit width offset = .ok (after, some place))
      (rest : Runs limit width after place turns result) :
      Runs limit width pass offset ((pass, offset) :: turns) result

/-- The number of the line that a turn at `offset` re-indents. -/
def lineNumber (pass : TablePass) (offset : Int) : Nat :=
  pass.tables.text.lineNumber (pass.tables.lineStart offset)

/-- There is one kind for each character, and the text has `lineCount` lines. -/
structure Sound (lineCount : Nat) (pass : TablePass) : Prop where
  kinds : pass.tables.kinds.length = pass.tables.text.length
  lines : pass.tables.text.lines.length = lineCount

/-- The line of `offset` does not begin in a string, does not stand at the column that its text advises,
and that column is no index, nor is its distance from the margin. -/
structure Overflows (limit : Nat) (width : Int) (text : Text) (offset : Int) : Prop where
  outside : (Snapshot.ofText text).inString ((Snapshot.ofText text).lineStart offset) = false
  moves : (Snapshot.ofText text).indentationColumn offset ≠
    ((Snapshot.ofText text).advise ((Snapshot.ofText text).lineStart offset) width).target
  beyond :
    ((Snapshot.ofText text).advise ((Snapshot.ofText text).lineStart offset) width).target <
      -(limit + 1 : Int) ∨
    limit < ((Snapshot.ofText text).advise ((Snapshot.ofText text).lineStart offset) width).target

/-- What holds along a run: each pass is sound, also the last one, the turns go through the lines from
`first` on, one line after the other, and there is no result exactly if a line overflows. -/
structure Orderly (limit : Nat) (width : Int) (lineCount first : Nat)
    (turns : List (TablePass × Int)) (result : Except ColumnError TablePass) : Prop where
  sound : ∀ turn ∈ turns, turn.1.Sound lineCount
  sound_last : ∀ done, result = .ok done → done.Sound lineCount
  visits : (turns.map fun turn => turn.1.lineNumber turn.2) = List.range' first turns.length
  overflows : result = .error .beyondIndices ↔
    ∃ turn ∈ turns, Overflows limit width turn.1.tables.text turn.2

section Orderly

variable {limit lineCount first : Nat} {width : Int} {pass done : TablePass} {offset : Int}
  {turns : List (TablePass × Int)} {result : Except ColumnError TablePass}

theorem orderly_last (number : pass.lineNumber offset = first) (before : pass.Sound lineCount)
    (after : done.Sound lineCount) (fits : ¬ Overflows limit width pass.tables.text offset) :
    Orderly limit width lineCount first [(pass, offset)] (.ok done) where
  sound := by
    intro turn member
    rw [List.mem_singleton.mp member]
    exact before
  sound_last := by
    rintro _ ⟨⟩
    exact after
  visits := by simp [number]
  overflows := by simp [fits]

theorem orderly_stuck (number : pass.lineNumber offset = first) (before : pass.Sound lineCount)
    (stuck : Overflows limit width pass.tables.text offset) :
    Orderly limit width lineCount first [(pass, offset)] (.error .beyondIndices) where
  sound := by
    intro turn member
    rw [List.mem_singleton.mp member]
    exact before
  sound_last := by
    intro done same
    cases same
  visits := by simp [number]
  overflows := by simp [stuck]

theorem Orderly.next (rest : Orderly limit width lineCount (first + 1) turns result)
    (number : pass.lineNumber offset = first) (before : pass.Sound lineCount)
    (fits : ¬ Overflows limit width pass.tables.text offset) :
    Orderly limit width lineCount first ((pass, offset) :: turns) result where
  sound := by
    intro turn member
    rcases List.mem_cons.mp member with rfl | later
    · exact before
    · exact rest.sound turn later
  sound_last := rest.sound_last
  visits := by
    rw [List.map_cons, rest.visits, number, List.length_cons, List.range'_succ]
  overflows := by
    rw [rest.overflows]
    simp [fits]

end Orderly

end TablePass

namespace RegionPass

/-- A region pass, with its snapshot as tables. -/
def onTables (pass : RegionPass) : TablePass :=
  ⟨pass.snapshot.tables, pass.groups, pass.cursor, pass.stop⟩

namespace Faithful

variable {pass : RegionPass} {a rest : Text}

/-- No look-up for the plan of a line fails. -/
theorem plan_tables (faithful : pass.Faithful a rest) (width : Int) :
    pass.snapshot.tables.plan pass.groups a.length width =
      .ok (pass.snapshot.indentationEnd a.length,
        if pass.snapshot.inString a.length then none
        else some (pass.groupsAt a.length, pass.adviceAt a.length width)) := by
  have inString : pass.snapshot.tables.inString a.length =
      .ok (pass.snapshot.inString a.length) := by
    rw [faithful.snapshot_eq, Tables.inString_tables]
  have advice (opener : Option Int) :
      pass.snapshot.tables.adviseInside opener a.length width =
        .ok (pass.snapshot.adviseInside opener a.length width) := by
    rw [faithful.snapshot_eq, Tables.adviseInside_tables]
  have advanced := Tables.advance_tables faithful.reached_le faithful.length_le_size
  rw [Tables.plan, Tables.indentationEnd_tables, ok_bind, inString, ok_bind, RegionPass.adviceAt,
    RegionPass.groupsAt]
  cases pass.snapshot.inString a.length with
  | true => rfl
  | false =>
      simp only [Bool.false_eq_true, if_false, advanced, ok_bind, advice]

/-- **No look-up for the edit of a line fails.** What may fail are the spaces for its column. -/
theorem editLine_tables (faithful : pass.Faithful a rest) (limit : Nat) (width : Int) :
    pass.snapshot.tables.editLine limit pass.groups a.length width pass.cursor =
      if pass.exceeds limit a.length width then .error (.column .beyondIndices)
      else .ok (pass.edit a.length width, pass.groupsAt a.length) := by
  rw [Tables.editLine, faithful.plan_tables]
  simp only [Except.mapError, ok_bind]
  cases inside : pass.snapshot.inString a.length with
  | true =>
      simp only [RegionPass.exceeds, Snapshot.exceeds, RegionPass.edit, Snapshot.indentEdit,
        RegionPass.groupsAt, inside, if_true, Bool.not_true, Bool.false_and, Bool.false_eq_true,
        if_false]
      rfl
  | false =>
      have advice : pass.snapshot.adviseInside
          ((pass.groupsAt a.length).innermost?.map Int.ofNat) a.length width =
            pass.adviceAt a.length width := rfl
      simp only [RegionPass.exceeds, Snapshot.exceeds, RegionPass.edit, Snapshot.indentEdit,
        Snapshot.editTo, inside, advice, Bool.false_eq_true, if_false, Tables.columnAt_tables,
        spacesWithin]
      generalize (pass.adviceAt a.length width).target = target
      cases moves : (pass.snapshot.columnAt (pass.snapshot.indentationEnd a.length) : Int) != target with
      | false => rfl
      | true => cases fits : fitsIndex limit target <;> rfl

/-- **A turn over tables does what a visit does**, if the line can be brought to its column. -/
theorem turn_tables (faithful : pass.Faithful a rest) (limit : Nat) (width : Int) {offset : Int}
    (place : pass.snapshot.lineStart offset = a.length) :
    pass.onTables.turn limit width offset =
      if pass.exceeds limit a.length width then .error (.column .beyondIndices)
      else .ok ((pass.visit a.length width).onTables,
        (pass.visit a.length width).nextLine? a.length) := by
  have start : pass.onTables.tables.lineStart offset = a.length := by
    rw [← place]
    exact Tables.lineStart_tables _ _
  have edit : pass.onTables.tables.editLine limit pass.onTables.groups a.length width
      pass.onTables.cursor = _ := faithful.editLine_tables limit width
  have tables : (if (pass.edit a.length width).changed then
        pass.onTables.tables.replaceBlank (pass.edit a.length width).start
          (pass.edit a.length width).stop (pass.edit a.length width).indent
      else pass.onTables.tables) = (pass.visit a.length width).snapshot.tables := by
    rw [RegionPass.onTables, Tables.replaceBlank_tables, ← apply_ite Snapshot.tables]
    rfl
  simp only [TablePass.turn, start, edit]
  cases pass.exceeds limit a.length width with
  | true => rfl
  | false =>
      simp only [Bool.false_eq_true, if_false, ok_bind, tables]
      rw [edit_start]
      rfl

theorem text_onTables (faithful : pass.Faithful a rest) : pass.onTables.tables.text = a ++ rest :=
  faithful.text_eq

theorem lineNumber_onTables (faithful : pass.Faithful a rest) {offset : Int}
    (place : pass.snapshot.lineStart offset = a.length) :
    pass.onTables.lineNumber offset = a.count '\n' + 1 := by
  have start : pass.onTables.tables.lineStart offset = a.length := by
    rw [← place]
    exact Tables.lineStart_tables _ _
  rw [TablePass.lineNumber, faithful.text_onTables, start, Text.lineNumber, List.take_left]

theorem sound (faithful : pass.Faithful a rest) :
    pass.onTables.Sound (a ++ rest).lines.length where
  kinds := by
    have kinds : pass.onTables.tables.kinds.length = pass.snapshot.size := List.length_map _
    rw [kinds]
    exact (Tables.length_text_tables pass.snapshot).symm
  lines := by rw [faithful.text_onTables]

/-- A visit adds no lines and takes none away. -/
theorem sound_visit (faithful : pass.Faithful a rest) (ends : Text.EndsLine a) (width : Int) :
    (pass.visit a.length width).onTables.Sound (a ++ rest).lines.length := by
  have same : (a ++ ((pass.edit a.length width).indent ++ rest.dropWhile isIndentation)).lines.length =
      (a ++ rest).lines.length := by
    rw [← Text.count_newline, ← Text.count_newline]
    simp only [List.count_append, count_newline_dropWhile, Nat.zero_add,
      count_newline_of_blanks (faithful.isIndentation_of_mem_indent ends width)]
  rw [← same]
  exact (faithful.visit ends width).sound

/-- A pass comes to a column that is no index where its text advises one. -/
theorem exceeds_iff_overflows (faithful : pass.Faithful a rest) (ends : Text.EndsLine a)
    (limit : Nat) (width : Int) {offset : Int} (place : pass.snapshot.lineStart offset = a.length) :
    pass.exceeds limit a.length width = true ↔
      TablePass.Overflows limit width pass.onTables.tables.text offset := by
  have scan : Snapshot.ofText pass.onTables.tables.text = pass.snapshot := by
    rw [faithful.text_onTables, faithful.snapshot_eq]
  have column : pass.snapshot.indentationColumn offset =
      pass.snapshot.columnAt (pass.snapshot.indentationEnd a.length) := by
    rw [Snapshot.indentationColumn, Snapshot.indentationEnd, place, Snapshot.indentationEnd,
      Snapshot.lineStart_of_endsLine faithful.text_eq ends]
  constructor
  · intro exceeds
    obtain ⟨outside, moves, beyond⟩ := Snapshot.exceeds_iff.mp exceeds
    rw [faithful.adviceAt_eq outside] at moves beyond
    rw [← column] at moves
    constructor <;> rw [scan, place]
    · exact outside
    · exact moves
    · exact beyond
  · rintro ⟨outside, moves, beyond⟩
    rw [scan, place] at outside moves beyond
    rw [column] at moves
    rw [← faithful.adviceAt_eq outside] at moves beyond
    exact Snapshot.exceeds_iff.mpr ⟨outside, moves, beyond⟩

/-- A pass over a line that cannot be brought to its column ends there. -/
theorem exists_runs_stuck (faithful : pass.Faithful a rest) (ends : Text.EndsLine a) {limit : Nat}
    {width : Int} (stuck : pass.exceeds limit a.length width = true) {offset : Int}
    (place : pass.snapshot.lineStart offset = a.length) :
    ∃ turns, TablePass.Runs limit width pass.onTables offset turns (.error .beyondIndices) ∧
      TablePass.Orderly limit width (a ++ rest).lines.length (a.count '\n' + 1) turns
        (.error .beyondIndices) := by
  have turn := faithful.turn_tables limit width place
  rw [if_pos stuck] at turn
  exact ⟨_, .stuck turn, TablePass.orderly_stuck (faithful.lineNumber_onTables place) faithful.sound
    ((faithful.exceeds_iff_overflows ends limit width place).mp stuck)⟩

/-- A pass that leads nowhere after a visit ends with it. -/
theorem exists_runs_last (faithful : pass.Faithful a rest) (ends : Text.EndsLine a) {limit : Nat}
    {width : Int} (fits : pass.exceeds limit a.length width = false)
    (last : (pass.visit a.length width).nextLine? a.length = none) {offset : Int}
    (place : pass.snapshot.lineStart offset = a.length) :
    ∃ turns, TablePass.Runs limit width pass.onTables offset turns
        (.ok (pass.visit a.length width).onTables) ∧
      TablePass.Orderly limit width (a ++ rest).lines.length (a.count '\n' + 1) turns
        (.ok (pass.visit a.length width).onTables) := by
  have turn := faithful.turn_tables limit width place
  rw [if_neg (by rw [fits]; exact Bool.false_ne_true), last] at turn
  have within := (faithful.exceeds_iff_overflows ends limit width place).not.mp
    (by rw [fits]; exact Bool.false_ne_true)
  exact ⟨_, .last turn, TablePass.orderly_last (faithful.lineNumber_onTables place) faithful.sound
    (faithful.sound_visit ends width) within⟩

/-- **A pass ends**, after one turn for each line that it comes to. What is left to do is bounded by the
newlines ahead, which no edit touches. -/
theorem exists_runs (faithful : pass.Faithful a rest) (ends : Text.EndsLine a) (limit : Nat)
    (width : Int) {further : Nat} (enough : rest.count '\n' ≤ further) {offset : Int}
    (place : pass.snapshot.lineStart offset = a.length) :
    ∃ turns, TablePass.Runs limit width pass.onTables offset turns
        ((pass.runWithin limit width further a.length).map onTables) ∧
      TablePass.Orderly limit width (a ++ rest).lines.length (a.count '\n' + 1) turns
        ((pass.runWithin limit width further a.length).map onTables) := by
  induction further generalizing pass a rest offset with
  | zero =>
      cases fits : pass.exceeds limit a.length width with
      | true =>
          rw [runWithin_stuck fits]
          exact faithful.exists_runs_stuck ends fits place
      | false =>
          cases leads : (pass.visit a.length width).nextLine? a.length with
          | none =>
              rw [runWithin_last fits leads]
              exact faithful.exists_runs_last ends fits leads place
          | some next =>
              obtain ⟨line, below, -, body, -, -, -⟩ := faithful.of_nextLine? ends leads
              exact absurd (Nat.lt_of_lt_of_le (count_newline_below body) enough)
                (Nat.not_lt_zero _)
  | succ further ih =>
      cases fits : pass.exceeds limit a.length width with
      | true =>
          rw [runWithin_stuck fits]
          exact faithful.exists_runs_stuck ends fits place
      | false =>
          cases leads : (pass.visit a.length width).nextLine? a.length with
          | none =>
              rw [runWithin_last fits leads]
              exact faithful.exists_runs_last ends fits leads place
          | some next =>
              have turn := faithful.turn_tables limit width place
              rw [if_neg (by rw [fits]; exact Bool.false_ne_true), leads] at turn
              have within := (faithful.exceeds_iff_overflows ends limit width place).not.mp
                (by rw [fits]; exact Bool.false_ne_true)
              have blanks := count_newline_of_blanks (faithful.isIndentation_of_mem_indent ends width)
              have same := (faithful.sound_visit ends width).lines
              obtain ⟨line, below, single, body, rfl, -, known⟩ := faithful.of_nextLine? ends leads
              have starts :=
                Text.endsLine_append_newline (a ++ (pass.edit a.length width).indent ++ line)
              have fewer : below.count '\n' ≤ further :=
                Nat.le_of_lt_succ (Nat.lt_of_lt_of_le (count_newline_below body) enough)
              have number : (a ++ (pass.edit a.length width).indent ++ line ++ ['\n']).count '\n' =
                  a.count '\n' + 1 := by
                simp only [List.count_append, blanks, List.count_eq_zero_of_not_mem single,
                  List.count_singleton_self, Nat.add_zero]
              obtain ⟨turns, runs, orderly⟩ := ih known starts fewer
                (Snapshot.lineStart_of_endsLine known.text_eq starts)
              rw [known.text_onTables] at same
              rw [same, number] at orderly
              rw [runWithin_next fits leads]
              exact ⟨_, .next turn runs,
                orderly.next (faithful.lineNumber_onTables place) faithful.sound within⟩

end Faithful

end RegionPass

/-! ### A region -/

/-- **Re-indenting a region ends and looks nothing up that is not there**, whatever the text, the
region, the cursor, the width and the greatest index. It goes through lines from top to bottom,
beginning with the line of the first offset, and there is one kind for each character all the way. It
is given up exactly if it comes to a line whose column is no index, which does not happen while the
text and the width leave enough room, and otherwise answers what it answers without a limit. -/
theorem indentRegion_runs (limit : Nat) (text : Text) (start stop : Int) (cursor : Option Int)
    (width : Int) :
    ∃ turns result,
      TablePass.Runs limit width
        ⟨(Snapshot.ofText text).tables, .empty, cursor.getD start, max start stop⟩
        (min start stop) turns result ∧
      TablePass.Orderly limit width text.lines.length
        (text.lineNumber (Text.clamp text.length (min start stop))) turns result ∧
      indentRegionWithin limit text start stop cursor width =
        result.map (fun done => (done.tables.text, done.cursor)) ∧
      (∀ done, result = .ok done →
        indentRegion text start stop cursor width = (done.tables.text, done.cursor)) ∧
      (tabWidth * text.length + text.lines.length * width.natAbs ≤ limit →
        ∃ done, result = .ok done) := by
  obtain ⟨a, line, behind, division, place, ends, single⟩ :=
    Text.exists_line_at (Text.clamp_le text.length (min start stop))
  have whole : text = a ++ (line ++ behind) := by rw [division, List.append_assoc]
  have known := RegionPass.faithful_start a (line ++ behind) (cursor.getD start) (max start stop)
  rw [← whole] at known
  have enough : (line ++ behind).count '\n' ≤ text.count '\n' := by
    rw [whole]
    exact (List.sublist_append_right a _).count_le '\n'
  have number : text.lineNumber (Text.clamp text.length (min start stop)) = a.count '\n' + 1 := by
    rw [← place, Text.lineNumber, division, List.take_left, List.count_append,
      List.count_eq_zero_of_not_mem single, Nat.add_zero]
  have starts := Snapshot.lineStart_ofText division ends single place.symm
  obtain ⟨turns, runs, orderly⟩ := known.exists_runs ends limit width enough starts
  rw [← whole, ← number] at orderly
  have within : indentRegionWithin limit text start stop cursor width =
      ((RegionPass.runWithin limit width (text.count '\n')
        ⟨Snapshot.ofText text, .empty, cursor.getD start, max start stop⟩ a.length).map
          RegionPass.onTables).map fun done => (done.tables.text, done.cursor) := by
    simp only [indentRegionWithin, starts]
    cases RegionPass.runWithin limit width (text.count '\n')
      ⟨Snapshot.ofText text, .empty, cursor.getD start, max start stop⟩ a.length <;> rfl
  cases through : RegionPass.runWithin limit width (text.count '\n')
      ⟨Snapshot.ofText text, .empty, cursor.getD start, max start stop⟩ a.length with
  | error cause =>
      rw [through] at runs orderly within
      refine ⟨turns, _, runs, orderly, within, ?_, ?_⟩
      · intro done finished
        cases finished
      · intro room
        rw [indentRegionWithin_eq_ok room] at within
        cases within
  | ok last =>
      rw [through] at runs orderly within
      refine ⟨turns, _, runs, orderly, within, ?_, fun _ => ⟨_, rfl⟩⟩
      intro done finished
      cases finished
      rw [indentRegion_of_line division ends single place.symm]
      dsimp only
      rw [RegionPass.run_eq_of_runWithin through]
      rfl

/-- A width so far below zero that the column of the second line is no index. -/
theorem indentRegionWithin_far_left :
    indentRegionWithin maxIndex "(a\n  b)".toList 0 7 none (-18446744073709551616) =
      .error .beyondIndices := by
  simp only [indentRegionWithin, Snapshot.ofText_eq_snapshot]
  decide +kernel

end LispEditor
