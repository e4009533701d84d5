import LispEditor.Proofs.Advice
import LispEditor.Proofs.RegionRescan

/-!
# A region pass, line by line

Because advice looks only up, a pass through a region can be told as a recursion over the lines of
the text: each line is re-indented below the lines above it as they have become, and the pass goes on
as long as there is some of the region left behind the line.

* `reindentedLine`: what becomes of one line; a second visit leaves it (`reindentedLine_idem`).
* `visitLines`: what becomes of the lines that a pass visits.
* `Faithful.run_lines`: a pass changes these lines, leaves those behind them, and visits just them.
-/

namespace LispEditor

open Text (unlines block)

/-! ### One line -/

/-- The blanks that a visit gives to a line below the text `a`. -/
def lineIndent (width : Int) (a line : Text) : Text :=
  if (Mode.code.after a).inString then line.takeWhile isIndentation
  else freshBlanks (adviceAbove a width).target (line.takeWhile isIndentation)

/-- What a visit makes of a line below the text `a`. -/
def reindentedLine (width : Int) (a line : Text) : Text :=
  lineIndent width a line ++ line.dropWhile isIndentation

theorem isIndentation_of_mem_lineIndent {width : Int} {a line : Text} :
    ∀ c ∈ lineIndent width a line, isIndentation c = true := by
  have old : ∀ c ∈ line.takeWhile isIndentation, isIndentation c = true :=
    fun c => List.mem_takeWhile_imp
  unfold lineIndent
  split
  · exact old
  · exact isIndentation_of_mem_freshBlanks old

theorem newline_not_mem_reindentedLine {line : Text} (single : '\n' ∉ line) (width : Int)
    (a : Text) : '\n' ∉ reindentedLine width a line := by
  intro member
  rcases List.mem_append.mp member with blank | other
  · exact ne_newline_of_isIndentation (isIndentation_of_mem_lineIndent _ blank) rfl
  · exact single ((List.dropWhile_sublist isIndentation).mem other)

/-- The blanks of a line that was visited are those it was given. -/
theorem takeWhile_reindentedLine (width : Int) (a line : Text) :
    (reindentedLine width a line).takeWhile isIndentation = lineIndent width a line :=
  takeWhile_append_eq isIndentation_of_mem_lineIndent
    fun _ head => eq_false_of_mem_head?_dropWhile head

theorem dropWhile_reindentedLine (width : Int) (a line : Text) :
    (reindentedLine width a line).dropWhile isIndentation = line.dropWhile isIndentation :=
  dropWhile_append_eq isIndentation_of_mem_lineIndent
    fun _ head => eq_false_of_mem_head?_dropWhile head

/-- **A second visit leaves a line as it is.** -/
theorem reindentedLine_idem (width : Int) (a line : Text) :
    reindentedLine width a (reindentedLine width a line) = reindentedLine width a line := by
  have blanks : lineIndent width a (reindentedLine width a line) = lineIndent width a line := by
    conv => lhs; unfold lineIndent
    rw [takeWhile_reindentedLine]
    unfold lineIndent
    split
    · rfl
    · exact freshBlanks_idem _ _
  calc reindentedLine width a (reindentedLine width a line)
      = lineIndent width a (reindentedLine width a line) ++
          (reindentedLine width a line).dropWhile isIndentation := rfl
    _ = lineIndent width a line ++ line.dropWhile isIndentation := by
        rw [blanks, dropWhile_reindentedLine]

/-! ### The lines of a pass -/

/-- How much of the region is left behind a line that becomes `new`, if it goes `left` characters
beyond the start of the line. The end of the region moves with the text only if it lies behind the
old blanks. -/
def leftBehind (line new : Text) (left : Int) : Int :=
  (if left > (line.takeWhile isIndentation).length then left + (new.length - line.length) else left) -
    (new.length + 1)

/-- The lines below `a` that a pass visits, as they become, when the region goes `left` characters
beyond `a`. -/
def visitLines (width : Int) (a : Text) (left : Int) : List Text → List Text
  | [] => []
  | line :: below =>
      let new := reindentedLine width a line
      let left := leftBehind line new left
      new :: if 0 < left then visitLines width (a ++ new ++ ['\n']) left below else []

/-- The lines below `a` once a pass is through. -/
def linesAfter (width : Int) (a : Text) (left : Int) (lines : List Text) : List Text :=
  visitLines width a left lines ++ lines.drop (visitLines width a left lines).length

/-- The pass goes on behind its first line. -/
theorem visitLines_next {width left : Int} {a line : Text}
    (more : 0 < leftBehind line (reindentedLine width a line) left) (below : List Text) :
    visitLines width a left (line :: below) =
      reindentedLine width a line ::
        visitLines width (a ++ reindentedLine width a line ++ ['\n'])
          (leftBehind line (reindentedLine width a line) left) below := by
  simp only [visitLines, if_pos more]

theorem visitLines_last {width left : Int} {a line : Text}
    (last : ¬ 0 < leftBehind line (reindentedLine width a line) left) (below : List Text) :
    visitLines width a left (line :: below) = [reindentedLine width a line] := by
  simp only [visitLines, if_neg last]

theorem linesAfter_next {width left : Int} {a line : Text}
    (more : 0 < leftBehind line (reindentedLine width a line) left) (below : List Text) :
    linesAfter width a left (line :: below) =
      reindentedLine width a line ::
        linesAfter width (a ++ reindentedLine width a line ++ ['\n'])
          (leftBehind line (reindentedLine width a line) left) below := by
  rw [linesAfter, visitLines_next more, List.cons_append, List.length_cons, List.drop_succ_cons,
    linesAfter]

theorem linesAfter_last {width left : Int} {a line : Text}
    (last : ¬ 0 < leftBehind line (reindentedLine width a line) left) (below : List Text) :
    linesAfter width a left (line :: below) = reindentedLine width a line :: below := by
  rw [linesAfter, visitLines_last last]
  rfl

theorem visitLines_single (width left : Int) (a line : Text) :
    visitLines width a left [line] = [reindentedLine width a line] := by
  simp only [visitLines, ite_self]

theorem visitLines_length_le (width : Int) (a : Text) (left : Int) (lines : List Text) :
    (visitLines width a left lines).length ≤ lines.length := by
  induction lines generalizing a left with
  | nil => exact Nat.le_refl _
  | cons line below ih =>
      simp only [visitLines, List.length_cons]
      split
      · exact Nat.succ_le_succ (ih _ _)
      · exact Nat.succ_le_succ (Nat.zero_le _)

theorem length_linesAfter (width : Int) (a : Text) (left : Int) (lines : List Text) :
    (linesAfter width a left lines).length = lines.length := by
  rw [linesAfter, List.length_append, List.length_drop]
  exact Nat.add_sub_cancel' (visitLines_length_le width a left lines)

theorem newline_not_mem_visitLines {width left : Int} {a : Text} {lines : List Text}
    (single : ∀ l ∈ lines, '\n' ∉ l) : ∀ l ∈ visitLines width a left lines, '\n' ∉ l := by
  induction lines generalizing a left with
  | nil => exact fun l member => nomatch member
  | cons line below ih =>
      intro l member
      have clean := single line List.mem_cons_self
      simp only [visitLines] at member
      split at member
      · rcases List.mem_cons.mp member with rfl | later
        · exact newline_not_mem_reindentedLine clean width a
        · exact ih (fun l member => single l (List.mem_cons_of_mem line member)) l later
      · rw [List.mem_singleton.mp member]
        exact newline_not_mem_reindentedLine clean width a

theorem newline_not_mem_linesAfter {width left : Int} {a : Text} {lines : List Text}
    (single : ∀ l ∈ lines, '\n' ∉ l) : ∀ l ∈ linesAfter width a left lines, '\n' ∉ l := by
  intro l member
  rcases List.mem_append.mp member with visited | left
  · exact newline_not_mem_visitLines single l visited
  · exact single l (List.mem_of_mem_drop left)

/-! ### The first line of a text -/

/-- Behind the blanks of a line there is none, also if the line is nothing but blanks. -/
theorem head_unlines_dropWhile {line : Text} {below : List Text} {c : Char}
    (head : c ∈ (unlines (line.dropWhile isIndentation :: below)).head?) :
    isIndentation c = false := by
  cases content : line.dropWhile isIndentation with
  | nil =>
      rw [content] at head
      cases below with
      | nil => cases head
      | cons next others =>
          obtain rfl : '\n' = c := Option.some.inj head
          rfl
  | cons d rest =>
      have first : d ∈ (line.dropWhile isIndentation).head? := by rw [content]; rfl
      have same : c = d := by
        rw [content] at head
        cases below with
        | nil => exact (Option.some.inj head).symm
        | cons next others => exact (Option.some.inj head).symm
      rw [same]
      exact eq_false_of_mem_head?_dropWhile first

theorem unlines_cons_eq (line : Text) (below : List Text) :
    unlines (line :: below) =
      line.takeWhile isIndentation ++ unlines (line.dropWhile isIndentation :: below) := by
  rw [← Text.unlines_append_head, List.takeWhile_append_dropWhile]

theorem takeWhile_unlines (line : Text) (below : List Text) :
    (unlines (line :: below)).takeWhile isIndentation = line.takeWhile isIndentation := by
  rw [unlines_cons_eq]
  exact takeWhile_append_eq (fun c => List.mem_takeWhile_imp) fun c => head_unlines_dropWhile

theorem dropWhile_unlines (line : Text) (below : List Text) :
    (unlines (line :: below)).dropWhile isIndentation =
      unlines (line.dropWhile isIndentation :: below) := by
  rw [unlines_cons_eq]
  exact dropWhile_append_eq (fun c => List.mem_takeWhile_imp) fun c => head_unlines_dropWhile

/-! ### A visit -/

namespace RegionPass

namespace Faithful

variable {pass : RegionPass} {a line : Text} {below : List Text}

/-- The blanks that a visit writes are those of `lineIndent`. -/
theorem edit_indent (faithful : pass.Faithful a (unlines (line :: below)))
    (ends : Text.EndsLine a) (width : Int) :
    (pass.edit a.length width).indent = lineIndent width a line := by
  rw [faithful.edit_eq_indentEdit ends, lineIndent, ← takeWhile_unlines line below]
  cases inside : (Mode.code.after a).inString with
  | true =>
      rw [Snapshot.indentEdit_of_inside faithful.text_eq ends (faithful.inString_eq.trans inside)]
      rfl
  | false =>
      rw [Snapshot.indentEdit_of_outside faithful.text_eq ends (faithful.inString_eq.trans inside),
        faithful.snapshot_eq, Snapshot.advise_eq_adviceAbove ends (Mode.after_eq_code ends inside)]
      rfl

/-- What a pass knows behind a visit. -/
theorem visit_line (faithful : pass.Faithful a (unlines (line :: below)))
    (ends : Text.EndsLine a) (width : Int) :
    (pass.visit a.length width).Faithful a (unlines (reindentedLine width a line :: below)) := by
  have after := faithful.visit ends width
  rwa [faithful.edit_indent ends, dropWhile_unlines, ← Text.unlines_append_head] at after

/-- How much of the region a visit leaves behind the line. -/
theorem stop_visit (faithful : pass.Faithful a (unlines (line :: below)))
    (ends : Text.EndsLine a) (width : Int) :
    (pass.visit a.length width).stop - (a ++ reindentedLine width a line ++ ['\n']).length =
      leftBehind line (reindentedLine width a line) (pass.stop - a.length) := by
  have stop : (pass.edit a.length width).stop =
      (a.length : Int) + (line.takeWhile isIndentation).length := by
    rw [faithful.edit_eq_indentEdit ends, Snapshot.indentEdit_stop faithful.text_eq ends,
      takeWhile_unlines, List.length_append]
    rfl
  have growth : (pass.edit a.length width).delta =
      (reindentedLine width a line).length - (line.length : Int) := by
    have old := congrArg List.length (List.takeWhile_append_dropWhile (p := isIndentation) (l := line))
    rw [IndentEdit.delta, edit_start, stop, faithful.edit_indent ends, reindentedLine]
    simp only [List.length_append] at old ⊢
    omega
  have moved : (pass.visit a.length width).stop =
      (pass.edit a.length width).moveEnd pass.stop := rfl
  rw [moved, IndentEdit.moveEnd, leftBehind, stop, growth]
  simp only [List.length_append, List.length_singleton]
  split <;> split <;> omega

/-- Where a visit leads. -/
theorem nextLine?_visit (faithful : pass.Faithful a (unlines (line :: below)))
    (ends : Text.EndsLine a) (single : '\n' ∉ line) (width : Int) :
    (pass.visit a.length width).nextLine? a.length =
      if below ≠ [] ∧ 0 < leftBehind line (reindentedLine width a line) (pass.stop - a.length) then
        some (a ++ reindentedLine width a line ++ ['\n']).length
      else none := by
  have text := (faithful.visit_line ends width).text_eq
  have clean := newline_not_mem_reindentedLine single width a
  have left := faithful.stop_visit ends width
  cases below with
  | nil =>
      have none : Text.newlineFrom (pass.visit a.length width).snapshot.text a.length = none := by
        rw [text]
        exact Text.newlineFrom_last a clean
      rw [RegionPass.nextLine?, none, if_neg (fun both => both.1 rfl)]
      rfl
  | cons next others =>
      have found : Text.newlineFrom (pass.visit a.length width).snapshot.text a.length =
          some (a ++ reindentedLine width a line).length := by
        rw [text, Text.unlines_cons (List.cons_ne_nil next others), ← List.append_assoc]
        exact Text.newlineFrom_append a clean _
      have size : (a ++ reindentedLine width a line ++ ['\n']).length =
          (a ++ reindentedLine width a line).length + 1 := List.length_append
      have reaches : ((a ++ reindentedLine width a line ++ ['\n']).length : Int) <
          (pass.visit a.length width).stop ↔
          0 < leftBehind line (reindentedLine width a line) (pass.stop - a.length) := by
        omega
      rw [RegionPass.nextLine?, found, Option.map_some, Option.filter_some, ← size]
      simp only [decide_eq_true_eq, reaches, ne_eq, reduceCtorEq, not_false_eq_true, true_and]

/-- What a pass knows when it comes to the next line. -/
theorem next_line {next : Text} {others : List Text}
    (faithful : pass.Faithful a (unlines (line :: next :: others))) (ends : Text.EndsLine a)
    (width : Int) :
    (pass.visit a.length width).Faithful (a ++ reindentedLine width a line ++ ['\n'])
      (unlines (next :: others)) := by
  have after := faithful.visit_line ends width
  rw [Text.unlines_cons (List.cons_ne_nil next others), ← List.singleton_append] at after
  exact after.forward.forward

end Faithful

/-! ### A run -/

/-- Where the lines start that a run visits, in the text as it is by then. -/
def visits (width : Int) (further : Nat) (pass : RegionPass) (start : Nat) : List Nat :=
  start ::
    match further, (pass.visit start width).nextLine? start with
    | further + 1, some next => visits width further (pass.visit start width) next
    | _, _ => []

theorem visits_last {pass : RegionPass} {width : Int} {start : Nat}
    (last : (pass.visit start width).nextLine? start = none) (further : Nat) :
    pass.visits width further start = [start] := by
  cases further <;> simp [visits, last]

theorem visits_next {pass : RegionPass} {width : Int} {start next : Nat}
    (some : (pass.visit start width).nextLine? start = some next) (further : Nat) :
    pass.visits width (further + 1) start =
      start :: (pass.visit start width).visits width further next := by
  conv => lhs; unfold visits
  simp [some]

/-- A run is made of its visits. -/
theorem run_eq_foldl (width : Int) (further : Nat) (pass : RegionPass) (start : Nat) :
    pass.run width further start =
      (pass.visits width further start).foldl (fun pass start => pass.visit start width) pass := by
  induction further generalizing pass start with
  | zero => simp [run, visits]
  | succ further ih =>
      cases leads : (pass.visit start width).nextLine? start with
      | none => rw [run_last leads, visits_last leads, List.foldl_cons, List.foldl_nil]
      | some next => rw [run_next leads, visits_next leads, List.foldl_cons, ih]

/-- **A pass re-indents the lines that it visits, below each other, and leaves those behind them.** Its
visits are to the starts of these lines. -/
theorem Faithful.run_lines {pass : RegionPass} {a line : Text} {below : List Text}
    (faithful : pass.Faithful a (unlines (line :: below))) (ends : Text.EndsLine a)
    (single : ∀ l ∈ line :: below, '\n' ∉ l) (width : Int) {further : Nat}
    (enough : below.length ≤ further) :
    (pass.run width further a.length).snapshot.text =
        a ++ unlines (linesAfter width a (pass.stop - a.length) (line :: below)) ∧
      pass.visits width further a.length =
        (List.range (visitLines width a (pass.stop - a.length) (line :: below)).length).map
          fun i => (a ++ block
            ((visitLines width a (pass.stop - a.length) (line :: below)).take i)).length := by
  have text := (faithful.visit_line ends width).text_eq
  have leads := faithful.nextLine?_visit ends (single line List.mem_cons_self) width
  induction below generalizing pass a line further with
  | nil =>
      rw [if_neg fun both => both.1 rfl] at leads
      rw [run_last leads, visits_last leads, text, linesAfter, visitLines_single]
      exact ⟨rfl, by simp⟩
  | cons next others ih =>
      by_cases more : 0 < leftBehind line (reindentedLine width a line) (pass.stop - a.length)
      · rw [if_pos ⟨List.cons_ne_nil next others, more⟩] at leads
        obtain ⟨further, rfl⟩ := Nat.exists_eq_add_of_le' (Nat.le_trans (Nat.le_add_left 1 _) enough)
        have clean : ∀ l ∈ next :: others, '\n' ∉ l :=
          fun l member => single l (List.mem_cons_of_mem line member)
        have known := faithful.next_line ends width
        have starts := Text.endsLine_append_newline (a ++ reindentedLine width a line)
        obtain ⟨result, visited⟩ := ih known starts clean (Nat.le_of_succ_le_succ enough)
          (known.visit_line starts width).text_eq
          (known.nextLine?_visit starts (clean next List.mem_cons_self) width)
        rw [faithful.stop_visit ends] at result visited
        have nonempty : linesAfter width (a ++ reindentedLine width a line ++ ['\n'])
            (leftBehind line (reindentedLine width a line) (pass.stop - a.length))
            (next :: others) ≠ [] := by
          rw [← List.length_pos_iff, length_linesAfter]
          exact Nat.succ_pos _
        rw [run_next leads, visits_next leads, result, visited, linesAfter_next more,
          visitLines_next more, Text.unlines_cons nonempty]
        refine ⟨by simp, ?_⟩
        rw [List.length_cons, List.range_succ_eq_map, List.map_cons, List.map_map]
        simp [Function.comp_def, Text.block_cons]
      · rw [if_neg fun both => more both.2] at leads
        rw [run_last leads, visits_last leads, text, linesAfter_last more, visitLines_last more]
        exact ⟨rfl, by simp⟩

end RegionPass

/-! ### A region -/

/-- Where the lines start that re-indenting a region visits, in the text as it is by then. -/
def regionVisits (text : Text) (start stop : Int) (cursor : Option Int) (width : Int) : List Nat :=
  let s := Snapshot.ofText text
  let pass : RegionPass := ⟨s, .empty, cursor.getD start, max start stop⟩
  pass.visits width (text.count '\n') (s.lineStart (min start stop))

/-- A region is re-indented by visits to lines, one after the other, that start at `visits`. -/
def ReindentedBy (text : Text) (start stop : Int) (cursor : Option Int) (width : Int)
    (visits : List Nat) : Prop :=
  let pass : RegionPass := ⟨Snapshot.ofText text, .empty, cursor.getD start, max start stop⟩
  let done := visits.foldl (fun pass start => pass.visit start width) pass
  indentRegion text start stop cursor width = (done.snapshot.text, done.cursor)

/-- Re-indenting a region is visiting its lines. -/
theorem reindentedBy_regionVisits (text : Text) (start stop : Int) (cursor : Option Int)
    (width : Int) :
    ReindentedBy text start stop cursor width (regionVisits text start stop cursor width) := by
  rw [ReindentedBy, indentRegion]
  simp only [RegionPass.run_eq_foldl, regionVisits]

/-- The pass that re-indents a region, if that begins on `line`: it knows its text, and it may visit all
lines that are left. -/
theorem indentRegion_eq_run {text line : Text} {above below : List Text}
    (division : text.lines = above ++ line :: below) {start stop : Int} {column : Nat}
    (place : Text.clamp text.length (min start stop) = (block above).length + column)
    (within : column ≤ line.length) (cursor : Option Int) (width : Int) :
    ∃ pass further, RegionPass.Faithful pass (block above) (unlines (line :: below)) ∧
      pass.cursor = cursor.getD start ∧ pass.stop = max start stop ∧ below.length ≤ further ∧
      indentRegion text start stop cursor width =
        ((pass.run width further (block above).length).snapshot.text,
          (pass.run width further (block above).length).cursor) ∧
      regionVisits text start stop cursor width =
        pass.visits width further (block above).length := by
  have divided := Text.eq_block_append_column division column
  have single := Text.newline_not_mem_take division column
  have place' : Text.clamp text.length (min start stop) =
      (block above ++ line.take column).length := by
    rw [place, Text.length_block_append_take within]
  have ends := Text.endsLine_block above
  have known := RegionPass.faithful_start (block above) (unlines (line :: below)) (cursor.getD start)
    (max start stop)
  have enough : below.length ≤ text.count '\n' := by
    have lines := Text.count_newline text
    rw [division, List.length_append, List.length_cons] at lines
    omega
  rw [← Text.eq_block_append_unlines division] at known
  refine ⟨_, _, known, rfl, rfl, enough, indentRegion_of_line divided ends single place' _ _, ?_⟩
  rw [regionVisits]
  simp only [Snapshot.lineStart_ofText divided ends single place']

/-- **What re-indenting a region makes of the lines of a text**, and which of them it visits: `line`
is the line that the region begins on. -/
theorem indentRegion_lines {text line : Text} {above below : List Text}
    (division : text.lines = above ++ line :: below) {start stop : Int} {column : Nat}
    (place : Text.clamp text.length (min start stop) = (block above).length + column)
    (within : column ≤ line.length) (cursor : Option Int) (width : Int) :
    (indentRegion text start stop cursor width).1 =
        block above ++ unlines (linesAfter width (block above)
          (max start stop - (block above).length) (line :: below)) ∧
      regionVisits text start stop cursor width =
        (List.range (visitLines width (block above) (max start stop - (block above).length)
          (line :: below)).length).map fun i =>
            (block above ++ block ((visitLines width (block above)
              (max start stop - (block above).length) (line :: below)).take i)).length := by
  obtain ⟨pass, further, known, -, stop_eq, enough, result, visits⟩ :=
    indentRegion_eq_run division place within cursor width
  rw [result, visits, ← stop_eq]
  exact known.run_lines (Text.endsLine_block above) (Text.newline_not_mem_below division) width enough

end LispEditor
