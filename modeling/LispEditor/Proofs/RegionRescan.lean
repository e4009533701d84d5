import LispEditor.Indent.Region
import LispEditor.Proofs.GroupStack
import LispEditor.Proofs.LineEdit

/-!
# A region pass against scanning anew

A pass through a region scans once, splices its edits into the snapshot and carries a stack of open
groups. `rescanRegion` does the same work with nothing but the text: each line is scanned and its
group searched for anew. `indentRegion_eq_rescanRegion` says that the two give the same text and
cursor, whatever the text, the bounds, the cursor and the width.

The proof is a simulation. `Faithful` relates a pass to the text it has reached, divided before a
line: the snapshot is the scan of that text, and the stack is that of characters before the line. A
visit keeps it (`Faithful.visit`), and from it the edit of the pass is the edit found anew
(`Faithful.edit_eq`).
-/

namespace LispEditor

/-! ### Scanning anew -/

/-- How many newlines there are from the line of `offset` on. -/
def newlinesBelow (text : Text) (offset : Int) : Nat :=
  (text.drop (Text.lineStart text (Text.clamp text.length offset))).count '\n'

theorem newlinesBelow_append {text a line rest : Text} (division : text = a ++ line ++ rest)
    (ends : Text.EndsLine a) (single : '\n' ∉ line) {offset : Int}
    (place : Text.clamp text.length offset = (a ++ line).length) :
    newlinesBelow text offset = (line ++ rest).count '\n' := by
  rw [newlinesBelow, place, division, Text.lineStart_append ends single, List.append_assoc,
    List.drop_left]

/-- Behind a newline the count begins with the next line. -/
theorem newlinesBelow_next (b below : Text) :
    newlinesBelow (b ++ '\n' :: below) ((b.length : Int) + 1) = below.count '\n' := by
  have division : b ++ '\n' :: below = (b ++ ['\n']) ++ [] ++ below := by simp
  have place : Text.clamp (b ++ '\n' :: below).length ((b.length : Int) + 1) =
      (b ++ ['\n'] ++ []).length := by
    simp only [Text.clamp, List.length_append, List.length_cons, List.length_nil]
    omega
  rw [newlinesBelow_append division (Text.endsLine_append_newline b) List.not_mem_nil place,
    List.nil_append]

/-- Blanks are not lines. -/
theorem count_newline_of_blanks {blanks : Text} (old : ∀ c ∈ blanks, isIndentation c = true) :
    blanks.count '\n' = 0 :=
  List.count_eq_zero_of_not_mem fun member => ne_newline_of_isIndentation (old _ member) rfl

theorem count_newline_dropWhile (rest : Text) :
    (rest.dropWhile isIndentation).count '\n' = rest.count '\n' := by
  have pieces : rest = rest.takeWhile isIndentation ++ rest.dropWhile isIndentation :=
    List.takeWhile_append_dropWhile.symm
  conv => rhs; rw [pieces]
  rw [List.count_append, count_newline_of_blanks fun c => List.mem_takeWhile_imp, Nat.zero_add]

/-- Behind the first line there are fewer newlines. -/
theorem count_newline_below {rest line below : Text}
    (body : rest.dropWhile isIndentation = line ++ '\n' :: below) :
    below.count '\n' < rest.count '\n' := by
  rw [← count_newline_dropWhile rest, body, List.count_append, List.count_cons_self]
  omega

/-- What stands behind the line that an edit is about, once it is made: nothing, or the next line,
at the place where a newline is found. -/
theorem exists_next_line {a indent body : Text} (blanks : ∀ c ∈ indent, isIndentation c = true) :
    (Text.newlineFrom (a ++ indent ++ body) a.length = none) ∨
      ∃ line rest, '\n' ∉ line ∧ body = line ++ '\n' :: rest ∧
        Text.newlineFrom (a ++ indent ++ body) a.length = some (a ++ indent ++ line).length := by
  obtain ⟨line, tail, rfl, single, last | ⟨rest, rfl⟩⟩ := Text.exists_first_line body
  · subst last
    refine Or.inl ?_
    rw [List.append_nil, List.append_assoc]
    refine Text.newlineFrom_last a fun member => ?_
    rcases List.mem_append.mp member with inIndent | inLine
    · exact ne_newline_of_isIndentation (blanks _ inIndent) rfl
    · exact single inLine
  · refine Or.inr ⟨line, rest, single, rfl, ?_⟩
    have clean : '\n' ∉ indent ++ line := by
      intro member
      rcases List.mem_append.mp member with inIndent | inLine
      · exact ne_newline_of_isIndentation (blanks _ inIndent) rfl
      · exact single inLine
    have found := Text.newlineFrom_append a clean rest
    rw [← List.append_assoc] at found
    rw [← List.append_assoc]
    exact found

/-- Every line that is left behind leaves fewer newlines below. -/
theorem newlinesBelow_lt {text : Text} {offset cursor width : Int} {newline : Nat}
    (found : Text.newlineFrom ((indentLine text offset (some cursor) width).apply text)
      (indentLine text offset (some cursor) width).start = some newline) :
    newlinesBelow ((indentLine text offset (some cursor) width).apply text) (newline + 1) <
      newlinesBelow text offset := by
  obtain ⟨a, line, behind, division, place, ends, single⟩ :=
    Text.exists_line_at (Text.clamp_le text.length offset)
  have whole : text = a ++ (line ++ behind) := by rw [division, List.append_assoc]
  have divided : (Snapshot.ofText text).text = a ++ (line ++ behind) := by
    rw [← whole]
    exact Snapshot.text_ofText text
  rw [indentLine_eq division ends single place.symm] at found ⊢
  have applied := Snapshot.indentEdit_apply divided ends
    ((Snapshot.ofText text).advise a.length width) cursor
  have blanks := Snapshot.isIndentation_of_mem_indent divided ends
    ((Snapshot.ofText text).advise a.length width) cursor
  rw [← whole] at applied
  rw [Snapshot.indentEdit_start] at found
  rw [applied] at found ⊢
  rw [newlinesBelow_append division ends single place.symm,
    ← count_newline_dropWhile (line ++ behind)]
  rcases exists_next_line blanks with none | ⟨next, below, clean, body, some⟩
  · rw [none] at found
    cases found
  · rw [some, Option.some.injEq] at found
    have size : (newline : Int) + 1 =
        ((a ++ ((Snapshot.ofText text).indentEdit a.length
          ((Snapshot.ofText text).advise a.length width) cursor).indent ++ next).length : Int) + 1 := by
      rw [found]
    rw [body, ← List.append_assoc, size, newlinesBelow_next, List.count_append,
      List.count_cons_self]
    omega

/-- Re-indents the line of `offset` and those behind it up to `stop`. Every line is scanned and
searched anew. -/
def rescanFrom (width : Int) (text : Text) (cursor stop offset : Int) : Text × Int :=
  let edit := indentLine text offset (some cursor) width
  let stop := if stop > edit.stop then stop + edit.delta else stop
  match found : Text.newlineFrom (edit.apply text) edit.start with
  | none => (edit.apply text, edit.cursor)
  | some newline =>
      if newline + 1 < stop then rescanFrom width (edit.apply text) edit.cursor stop (newline + 1)
      else (edit.apply text, edit.cursor)
termination_by newlinesBelow text offset
decreasing_by exact newlinesBelow_lt found

/-- Where the region ends, once an edit is made. -/
def IndentEdit.moveEnd (edit : IndentEdit) (stop : Int) : Int :=
  if stop > edit.stop then stop + edit.delta else stop

/-- The line that scanning anew goes on with behind an edit, if that is still inside the region. -/
def IndentEdit.nextLine? (edit : IndentEdit) (text : Text) (stop : Int) : Option Nat :=
  ((Text.newlineFrom (edit.apply text) edit.start).map (· + 1)).filter fun next =>
    decide ((next : Int) < edit.moveEnd stop)

theorem rescanFrom_last {width : Int} {text : Text} {cursor stop offset : Int}
    (last : (indentLine text offset (some cursor) width).nextLine? text stop = none) :
    rescanFrom width text cursor stop offset =
      ((indentLine text offset (some cursor) width).apply text,
        (indentLine text offset (some cursor) width).cursor) := by
  rw [rescanFrom]
  split
  · rfl
  · next newline found =>
      rw [IndentEdit.nextLine?, found] at last
      have outside : ¬ (newline : Int) + 1 <
          (indentLine text offset (some cursor) width).moveEnd stop := by
        simpa using last
      exact if_neg outside

theorem rescanFrom_next {width : Int} {text : Text} {cursor stop offset : Int} {next : Nat}
    (leads : (indentLine text offset (some cursor) width).nextLine? text stop = some next) :
    rescanFrom width text cursor stop offset =
      rescanFrom width ((indentLine text offset (some cursor) width).apply text)
        (indentLine text offset (some cursor) width).cursor
        ((indentLine text offset (some cursor) width).moveEnd stop) next := by
  rw [IndentEdit.nextLine?, Option.filter_eq_some_iff, Option.map_eq_some_iff,
    decide_eq_true_eq] at leads
  obtain ⟨⟨newline, found, rfl⟩, inside⟩ := leads
  rw [rescanFrom]
  split
  · next none =>
      rw [none] at found
      cases found
  · next newline' found' =>
      rw [found', Option.some.injEq] at found
      subst found
      exact if_pos inside

/-- Re-indents the lines between `start` and `stop`, in whichever order these are given, with
nothing kept from line to line but the text, the cursor and the end of the region. -/
def rescanRegion (text : Text) (start stop : Int) (cursor : Option Int) (width : Int) :
    Text × Int :=
  if stop < start then rescanFrom width text (cursor.getD start) start stop
  else rescanFrom width text (cursor.getD start) stop start

/-! ### What a pass knows -/

namespace RegionPass

/-- A pass has the scan of the text `a ++ rest`, and its open groups are those of characters of
`a`. -/
structure Faithful (pass : RegionPass) (a rest : Text) : Prop where
  snapshot_eq : pass.snapshot = Snapshot.ofText (a ++ rest)
  tracks : pass.groups.Tracks pass.snapshot
  reached_le : pass.groups.reached ≤ a.length

namespace Faithful

variable {pass : RegionPass} {a rest : Text}

theorem text_eq (faithful : pass.Faithful a rest) : pass.snapshot.text = a ++ rest := by
  rw [faithful.snapshot_eq]
  exact Snapshot.text_ofText _

theorem inString_eq (faithful : pass.Faithful a rest) :
    pass.snapshot.inString a.length = (Mode.code.after a).inString := by
  rw [faithful.snapshot_eq, Snapshot.inString_ofText]

theorem length_le_size (faithful : pass.Faithful a rest) : a.length ≤ pass.snapshot.size := by
  rw [← Snapshot.length_text, faithful.text_eq, List.length_append]
  exact Nat.le_add_right _ _

/-- The division of the text may move on. -/
theorem forward {line : Text} (faithful : pass.Faithful a (line ++ rest)) :
    pass.Faithful (a ++ line) rest where
  snapshot_eq := by rw [faithful.snapshot_eq, List.append_assoc]
  tracks := faithful.tracks
  reached_le := by
    rw [List.length_append]
    exact Nat.le_add_right_of_le faithful.reached_le

/-- The groups asked for at a line are those of characters before it. -/
theorem groupsAt (faithful : pass.Faithful a rest) :
    (pass.groupsAt a.length).Tracks pass.snapshot ∧
      (pass.groupsAt a.length).reached ≤ a.length := by
  unfold RegionPass.groupsAt
  split
  · exact ⟨faithful.tracks, faithful.reached_le⟩
  · refine ⟨faithful.tracks.advance faithful.reached_le faithful.length_le_size, ?_⟩
    show max pass.groups.reached a.length ≤ a.length
    exact Nat.max_le.mpr ⟨faithful.reached_le, Nat.le_refl _⟩

/-- **The edit of a pass is the edit found by scanning anew.** -/
theorem edit_eq (faithful : pass.Faithful a rest) (ends : Text.EndsLine a) (width : Int) :
    pass.edit a.length width = indentLine (a ++ rest) a.length (some pass.cursor) width := by
  rw [indentLine_of_endsLine ends, ← faithful.snapshot_eq, RegionPass.edit]
  cases inside : pass.snapshot.inString a.length with
  | true =>
      -- The advice is not used.
      rw [Snapshot.indentEdit_of_inside faithful.text_eq ends inside,
        Snapshot.indentEdit_of_inside faithful.text_eq ends inside]
  | false =>
      have asked : pass.groupsAt a.length = pass.groups.advance pass.snapshot a.length := by
        rw [RegionPass.groupsAt, if_neg (by rw [inside]; exact Bool.false_ne_true)]
      have opener := faithful.tracks.innermost?_advance faithful.reached_le faithful.length_le_size
      rw [asked, opener, Snapshot.advise]

theorem edit_eq_indentEdit (faithful : pass.Faithful a rest) (ends : Text.EndsLine a)
    (width : Int) :
    pass.edit a.length width =
      pass.snapshot.indentEdit a.length (pass.snapshot.advise a.length width) pass.cursor := by
  rw [faithful.edit_eq ends, indentLine_of_endsLine ends, ← faithful.snapshot_eq]

/-- The snapshot behind a visit is the scan of the text with the edit made. -/
theorem snapshot_visit (faithful : pass.Faithful a rest) (ends : Text.EndsLine a) (width : Int) :
    (pass.visit a.length width).snapshot = Snapshot.ofText
      (a ++ ((pass.edit a.length width).indent ++ rest.dropWhile isIndentation)) := by
  have pieces : a ++ rest = a ++ rest.takeWhile isIndentation ++ rest.dropWhile isIndentation := by
    rw [List.append_assoc, List.takeWhile_append_dropWhile]
  have old : ∀ c ∈ rest.takeWhile isIndentation, isIndentation c = true :=
    fun c => List.mem_takeWhile_imp
  rw [RegionPass.visit]
  simp only [faithful.edit_eq_indentEdit ends]
  cases inside : pass.snapshot.inString a.length with
  | true =>
      rw [Snapshot.indentEdit_of_inside faithful.text_eq ends inside]
      simp only [Bool.false_eq_true, if_false]
      rw [faithful.snapshot_eq, List.takeWhile_append_dropWhile]
  | false =>
      have outside : (Mode.code.after a).inString = false := by rw [← faithful.inString_eq, inside]
      rw [Snapshot.indentEdit_of_outside faithful.text_eq ends inside]
      generalize (pass.snapshot.advise a.length width).target = target
      simp only
      split
      · rw [faithful.snapshot_eq, pieces, Snapshot.replaceBlank_ofText (Mode.after_eq_code ends outside)
          (fun c member => isSeparator_of_isIndentation (old c member))
          (fun c member => isSeparator_of_isIndentation
            (isIndentation_of_mem_freshBlanks old c member)), List.append_assoc]
      · next same =>
          have stands : (textWidth (rest.takeWhile isIndentation) : Int) = target := by
            simpa using same
          rw [freshBlanks, if_pos stands, faithful.snapshot_eq, List.takeWhile_append_dropWhile]

/-- **A visit keeps what a pass knows.** -/
theorem visit (faithful : pass.Faithful a rest) (ends : Text.EndsLine a) (width : Int) :
    (pass.visit a.length width).Faithful a
      ((pass.edit a.length width).indent ++ rest.dropWhile isIndentation) := by
  have snapshot := faithful.snapshot_visit ends width
  obtain ⟨tracks, reached⟩ := faithful.groupsAt
  refine ⟨snapshot, ?_, reached⟩
  show (pass.groupsAt a.length).Tracks _
  refine tracks.of_take_eq ?_ ?_
  · refine Nat.le_trans reached ?_
    rw [snapshot, Snapshot.ofText, Snapshot.size_scan, List.length_append]
    exact Nat.le_add_right _ _
  · rw [snapshot, faithful.snapshot_eq, Snapshot.take_cells_ofText reached,
      Snapshot.take_cells_ofText reached]

/-- The blanks that a visit writes. -/
theorem isIndentation_of_mem_indent (faithful : pass.Faithful a rest) (ends : Text.EndsLine a)
    (width : Int) : ∀ c ∈ (pass.edit a.length width).indent, isIndentation c = true := by
  rw [faithful.edit_eq_indentEdit ends]
  exact Snapshot.isIndentation_of_mem_indent faithful.text_eq ends _ _

/-- Where a visit leads: there is no line left, or the pass comes to the next one knowing it, if the
region goes that far. -/
theorem next (faithful : pass.Faithful a rest) (ends : Text.EndsLine a) (width : Int) :
    Text.newlineFrom (pass.visit a.length width).snapshot.text a.length = none ∨
      ∃ line below, '\n' ∉ line ∧ rest.dropWhile isIndentation = line ++ '\n' :: below ∧
        Text.newlineFrom (pass.visit a.length width).snapshot.text a.length =
          some (a ++ (pass.edit a.length width).indent ++ line).length ∧
        (pass.visit a.length width).Faithful
          (a ++ (pass.edit a.length width).indent ++ line ++ ['\n']) below := by
  have after := faithful.visit ends width
  have text : (pass.visit a.length width).snapshot.text =
      a ++ (pass.edit a.length width).indent ++ rest.dropWhile isIndentation := by
    rw [after.text_eq, List.append_assoc]
  rw [text]
  rcases exists_next_line (faithful.isIndentation_of_mem_indent ends width) with
    none | ⟨line, below, single, body, some⟩
  · exact Or.inl none
  · refine Or.inr ⟨line, below, single, body, some, ?_⟩
    have further : (pass.visit a.length width).Faithful a
        ((pass.edit a.length width).indent ++ (line ++ (['\n'] ++ below))) := by
      have same := after
      rw [body] at same
      exact same
    exact further.forward.forward.forward

end Faithful

/-! ### Runs -/

theorem edit_start (pass : RegionPass) (start : Nat) (width : Int) :
    (pass.edit start width).start = start :=
  Snapshot.indentEdit_start _ _ _ _

theorem run_last {pass : RegionPass} {width : Int} {start : Nat}
    (last : (pass.visit start width).nextLine? start = none) (further : Nat) :
    pass.run width further start = pass.visit start width := by
  cases further <;> simp [run, last]

theorem run_next {pass : RegionPass} {width : Int} {start next : Nat}
    (some : (pass.visit start width).nextLine? start = some next) (further : Nat) :
    pass.run width (further + 1) start = (pass.visit start width).run width further next := by
  conv => lhs; unfold run
  simp [some]

namespace Faithful

variable {pass : RegionPass} {a rest : Text}

/-- The line that a visit leads to, if the region goes that far. -/
theorem of_nextLine? (faithful : pass.Faithful a rest) (ends : Text.EndsLine a) {width : Int}
    {next : Nat} (leads : (pass.visit a.length width).nextLine? a.length = some next) :
    ∃ line below, '\n' ∉ line ∧ rest.dropWhile isIndentation = line ++ '\n' :: below ∧
      next = (a ++ (pass.edit a.length width).indent ++ line ++ ['\n']).length ∧
      (next : Int) < (pass.visit a.length width).stop ∧
      (pass.visit a.length width).Faithful
        (a ++ (pass.edit a.length width).indent ++ line ++ ['\n']) below := by
  rw [RegionPass.nextLine?, Option.filter_eq_some_iff, decide_eq_true_eq] at leads
  obtain ⟨place, inside⟩ := leads
  rcases faithful.next ends width with none | ⟨line, below, single, body, found, known⟩
  · rw [none] at place
    cases place
  · rw [found] at place
    refine ⟨line, below, single, body, ?_, inside, known⟩
    rw [List.length_append]
    exact (Option.some.inj place).symm

theorem text_visit (faithful : pass.Faithful a rest) (ends : Text.EndsLine a) (width : Int) :
    (pass.visit a.length width).snapshot.text =
      (indentLine (a ++ rest) a.length (some pass.cursor) width).apply (a ++ rest) := by
  have applied := Snapshot.indentEdit_apply faithful.text_eq ends
    (pass.snapshot.advise a.length width) pass.cursor
  rw [← faithful.edit_eq_indentEdit ends] at applied
  rw [← faithful.edit_eq ends, applied, (faithful.visit ends width).text_eq, List.append_assoc]

/-- A visit leads to the line that scanning anew goes on with. -/
theorem nextLine?_eq (faithful : pass.Faithful a rest) (ends : Text.EndsLine a) (width : Int) :
    (indentLine (a ++ rest) a.length (some pass.cursor) width).nextLine? (a ++ rest) pass.stop =
      (pass.visit a.length width).nextLine? a.length := by
  rw [IndentEdit.nextLine?, ← faithful.text_visit ends, ← faithful.edit_eq ends, edit_start]
  rfl

/-- Scanning anew stops where a visit leads nowhere. -/
theorem rescanFrom_visit_last (faithful : pass.Faithful a rest) (ends : Text.EndsLine a)
    {width : Int} (last : (pass.visit a.length width).nextLine? a.length = none) :
    rescanFrom width (a ++ rest) pass.cursor pass.stop a.length =
      ((pass.visit a.length width).snapshot.text, (pass.visit a.length width).cursor) := by
  rw [rescanFrom_last ((faithful.nextLine?_eq ends width).trans last), faithful.text_visit ends,
    ← faithful.edit_eq ends]
  rfl

/-- Scanning anew goes on as a visit does. -/
theorem rescanFrom_visit_next (faithful : pass.Faithful a rest) (ends : Text.EndsLine a)
    {width : Int} {next : Nat}
    (leads : (pass.visit a.length width).nextLine? a.length = some next) :
    rescanFrom width (a ++ rest) pass.cursor pass.stop a.length =
      rescanFrom width (pass.visit a.length width).snapshot.text
        (pass.visit a.length width).cursor (pass.visit a.length width).stop next := by
  rw [rescanFrom_next ((faithful.nextLine?_eq ends width).trans leads), faithful.text_visit ends,
    ← faithful.edit_eq ends]
  rfl

/-- **A pass that knows its text does what scanning anew does**, as long as it may visit all lines
that are left. -/
theorem run_eq (faithful : pass.Faithful a rest) (ends : Text.EndsLine a) (width : Int)
    {further : Nat} (enough : rest.count '\n' ≤ further) :
    ((pass.run width further a.length).snapshot.text, (pass.run width further a.length).cursor) =
      rescanFrom width (a ++ rest) pass.cursor pass.stop a.length := by
  induction further generalizing pass a rest with
  | zero =>
      cases leads : (pass.visit a.length width).nextLine? a.length with
      | none => rw [run_last leads, faithful.rescanFrom_visit_last ends leads]
      | some next =>
          -- There would be a newline, and none is left.
          obtain ⟨line, below, -, body, -, -, -⟩ := faithful.of_nextLine? ends leads
          exact absurd (Nat.lt_of_lt_of_le (count_newline_below body) enough) (Nat.not_lt_zero _)
  | succ further ih =>
      cases leads : (pass.visit a.length width).nextLine? a.length with
      | none => rw [run_last leads, faithful.rescanFrom_visit_last ends leads]
      | some next =>
          obtain ⟨line, below, -, body, rfl, -, known⟩ := faithful.of_nextLine? ends leads
          have fewer : below.count '\n' ≤ further :=
            Nat.le_of_lt_succ (Nat.lt_of_lt_of_le (count_newline_below body) enough)
          rw [run_next leads, ih known (Text.endsLine_append_newline _) fewer, ← known.text_eq,
            faithful.rescanFrom_visit_next ends leads]

end Faithful

/-- A new pass knows its text. -/
theorem faithful_start (a rest : Text) (cursor stop : Int) :
    (⟨Snapshot.ofText (a ++ rest), .empty, cursor, stop⟩ : RegionPass).Faithful a rest :=
  ⟨rfl, OpenGroups.tracks_empty _, Nat.zero_le _⟩

end RegionPass

/-- Scanning anew depends on an offset only through its line. -/
theorem rescanFrom_of_line {text a line rest : Text} (division : text = a ++ line ++ rest)
    (ends : Text.EndsLine a) (single : '\n' ∉ line) {offset : Int}
    (place : Text.clamp text.length offset = (a ++ line).length) (width cursor stop : Int) :
    rescanFrom width text cursor stop offset = rescanFrom width text cursor stop a.length := by
  have whole : text = a ++ (line ++ rest) := by rw [division, List.append_assoc]
  have same : indentLine text offset (some cursor) width =
      indentLine text a.length (some cursor) width := by
    rw [indentLine_eq division ends single place]
    conv => rhs; rw [whole, indentLine_of_endsLine ends, ← whole]
  rw [rescanFrom, same, ← rescanFrom]

/-- The pass through a region begins at the line of its first offset. -/
theorem indentRegion_of_line {text a line rest : Text} (division : text = a ++ line ++ rest)
    (ends : Text.EndsLine a) (single : '\n' ∉ line) {start stop : Int}
    (place : Text.clamp text.length (min start stop) = (a ++ line).length) (cursor : Option Int)
    (width : Int) :
    indentRegion text start stop cursor width =
      let pass : RegionPass :=
        ⟨Snapshot.ofText text, .empty, cursor.getD start, max start stop⟩
      let done := pass.run width (text.count '\n') a.length
      (done.snapshot.text, done.cursor) := by
  rw [indentRegion]
  simp only [Snapshot.lineStart_ofText division ends single place]

/-- **A region pass gives the text and the cursor that scanning anew at each line gives.** -/
theorem indentRegion_eq_rescanRegion (text : Text) (start stop : Int) (cursor : Option Int)
    (width : Int) :
    indentRegion text start stop cursor width = rescanRegion text start stop cursor width := by
  obtain ⟨a, line, behind, division, place, ends, single⟩ :=
    Text.exists_line_at (Text.clamp_le text.length (min start stop))
  have whole : text = a ++ (line ++ behind) := by rw [division, List.append_assoc]
  have known := RegionPass.faithful_start a (line ++ behind) (cursor.getD start) (max start stop)
  rw [← whole] at known
  have enough : (line ++ behind).count '\n' ≤ text.count '\n' := by
    rw [whole]
    exact (List.sublist_append_right a (line ++ behind)).count_le '\n'
  have simulated := known.run_eq ends width enough
  rw [← whole, ← rescanFrom_of_line division ends single place.symm] at simulated
  rw [indentRegion_of_line division ends single place.symm, rescanRegion]
  simp only [simulated]
  split
  · next swapped =>
      have order := Int.le_of_lt swapped
      rw [Int.max_eq_left order, Int.min_eq_right order]
  · next ordered =>
      have order := Int.not_lt.mp ordered
      rw [Int.max_eq_right order, Int.min_eq_left order]

end LispEditor
