import LispEditor.Proofs.DocumentEdit
import LispEditor.Proofs.RegionFixpoint

/-!
# The indentation commands of an editor

An editor computes an edit on its whole text and then replaces only some lines of its document. This
is right as long as the edit changes nothing else, which is what the parts of this module are about.

* `newlineAndIndent_lines`: breaking a line makes two lines of one and leaves all others.
* `shown_indentRegion`, `shown_newlineAndIndent`: what the functions on texts make of a text that is
  shown as it is is such a text.
* `Editor.reindentLine_takes`, `Editor.reindent_shows`, `Editor.newline_shows`: what each of the three
  commands does to the document, told by the function on texts.
* `Editor.indentation_commands`: the three together.
* `Editor.not_takes_newline`: a line break that is put in the place of the same line break.
-/

namespace LispEditor

open Text (unlines block)

namespace Text

/-! ### The lines that a command replaces -/

/-- Lines, each with a newline before it. -/
def trail (lines : List Text) : Text :=
  lines.flatMap ('\n' :: ·)

theorem unlines_cons_eq_trail (line : Text) (below : List Text) :
    unlines (line :: below) = line ++ trail below := by
  induction below generalizing line with
  | nil => exact (List.append_nil line).symm
  | cons next others ih =>
      rw [unlines_cons (List.cons_ne_nil next others), ih next]
      rfl

/-- A line that starts behind a text starts there in what is shown, too. -/
theorem EndsLine.shown {text : Text} (ends : EndsLine text) : EndsLine (Text.shown text) := by
  rcases ends.cases with rfl | ⟨init, rfl⟩
  · exact endsLine_nil
  · rw [shown_append]
    exact endsLine_append_newline _

/-- What follows a line begins with a newline, if there is anything. -/
theorem newlineFrom_trail (a : Text) {line : Text} (single : '\n' ∉ line) (below : List Text) :
    (newlineFrom (a ++ line ++ trail below) a.length).getD (a ++ line ++ trail below).length =
      (a ++ line).length := by
  cases below with
  | nil =>
      have none : a ++ line ++ trail [] = a ++ line := List.append_nil _
      rw [none, newlineFrom_last a single]
      rfl
  | cons next others =>
      have found : newlineFrom (a ++ line ++ trail (next :: others)) a.length =
          some (a ++ line).length := newlineFrom_append a single (next ++ trail others)
      rw [found]
      rfl

variable {text line last : Text} {above below upTo behind : List Text} {column lastColumn : Nat}

theorem length_block_add_le (division : lines text = above ++ line :: below)
    (within : column ≤ line.length) : (block above).length + column ≤ text.length := by
  rw [eq_block_append_column division column, List.length_append,
    length_block_append_take within]
  exact Nat.le_add_right _ _

/-- Where the line of an offset ends. -/
theorem newlineFrom_of_lines (division : lines text = above ++ line :: below)
    (within : column ≤ line.length) :
    (newlineFrom text ((block above).length + column : Nat)).getD text.length =
      (block above ++ line).length := by
  have pieces : text = block above ++ line.take column ++ line.drop column ++ trail below := by
    conv => lhs; rw [eq_block_append_column division column, unlines_cons_eq_trail]
    simp only [List.append_assoc]
  have single : '\n' ∉ line.drop column :=
    fun member => newline_not_mem_below division line List.mem_cons_self (List.mem_of_mem_drop member)
  have ending := newlineFrom_trail (block above ++ line.take column) single below
  rwa [← pieces, length_block_append_take within, List.append_assoc, List.take_append_drop]
    at ending

/-- The bounds of the lines of two offsets. -/
theorem lineBounds_of_lines (division : lines text = above ++ line :: below)
    (within : column ≤ line.length) (division' : lines text = upTo ++ last :: behind)
    (within' : lastColumn ≤ last.length) :
    lineBounds text ((block above).length + column : Nat) ((block upTo).length + lastColumn : Nat) =
      (((block above).length : Int), ((block upTo ++ last).length : Int)) := by
  have first : lineStart text (resolve text.length ((block above).length + column : Nat)) =
      (block above).length := by
    rw [resolve_natCast_of_le (length_block_add_le division within),
      lineStart_of_lines division within]
  simp only [lineBounds, first, newlineFrom_of_lines division' within']

end Text

/-! ### Characters of an indented text -/

namespace Text

variable {α : Type} {items inserted : List α} {start stop : Int} {item : α}

theorem mem_of_mem_splice (member : item ∈ splice items start stop inserted) :
    item ∈ items ∨ item ∈ inserted := by
  rcases List.mem_append.mp member with front | behind
  · rcases List.mem_append.mp front with before | new
    · exact .inl (List.mem_of_mem_take before)
    · exact .inr new
  · exact .inl (List.mem_of_mem_drop behind)

end Text

/-- An edit that changes anything puts in spaces. -/
theorem Snapshot.eq_space_of_mem_indent {s : Snapshot} {start : Nat} {advice : Advice}
    {cursor : Int} (changed : (s.indentEdit start advice cursor).changed = true) {c : Char}
    (member : c ∈ (s.indentEdit start advice cursor).indent) : c = ' ' := by
  rw [indentEdit] at changed member
  split at changed
  next => exact absurd changed Bool.false_ne_true
  next outside =>
    rw [if_neg outside, editTo] at member
    rw [editTo] at changed
    dsimp only at changed member
    rw [if_pos changed] at member
    exact List.eq_of_mem_replicate member

theorem mem_of_mem_indentLine {text : Text} {offset : Int} {cursor : Option Int} {width : Int}
    {c : Char} (member : c ∈ (indentLine text offset cursor width).apply text) :
    c ∈ text ∨ c = ' ' := by
  rw [IndentEdit.apply] at member
  split at member
  next changed =>
    exact (Text.mem_of_mem_splice member).imp_right (Snapshot.eq_space_of_mem_indent changed)
  next => exact .inl member

/-- A broken line has characters of the text, a newline and spaces. -/
theorem mem_of_mem_newlineAndIndent {text : Text} {cursor width : Int} {c : Char}
    (member : c ∈ (newlineAndIndent text cursor width).1) : c ∈ text ∨ c = '\n' ∨ c = ' ' := by
  rw [newlineAndIndent] at member
  rcases mem_of_mem_indentLine member with inBroken | space
  · rcases List.mem_append.mp inBroken with front | behind
    · exact .inl (List.mem_of_mem_take front)
    · rcases List.mem_cons.mp behind with newline | back
      · exact .inr (.inl newline)
      · exact .inl (List.mem_of_mem_drop back)
  · exact .inr (.inr space)

namespace RegionPass

theorem mem_of_mem_visit {pass : RegionPass} {start : Nat} {width : Int} {c : Char}
    (member : c ∈ (pass.visit start width).snapshot.text) : c ∈ pass.snapshot.text ∨ c = ' ' := by
  rw [visit] at member
  dsimp only at member
  split at member
  next changed =>
    obtain ⟨cell, spliced, rfl⟩ := List.mem_map.mp member
    rcases Text.mem_of_mem_splice spliced with old | new
    · exact .inl (List.mem_map_of_mem old)
    · obtain ⟨blank, inIndent, rfl⟩ := List.mem_map.mp new
      exact .inr (Snapshot.eq_space_of_mem_indent changed inIndent)
  next => exact .inl member

theorem mem_of_mem_run {width : Int} {further : Nat} {pass : RegionPass} {start : Nat} {c : Char}
    (member : c ∈ (pass.run width further start).snapshot.text) :
    c ∈ pass.snapshot.text ∨ c = ' ' := by
  induction further generalizing pass start with
  | zero =>
      unfold run at member
      exact mem_of_mem_visit member
  | succ further ih =>
      cases leads : (pass.visit start width).nextLine? start with
      | none =>
          rw [run_last leads] at member
          exact mem_of_mem_visit member
      | some next =>
          rw [run_next leads] at member
          rcases ih member with inVisited | space
          · exact mem_of_mem_visit inVisited
          · exact .inr space

end RegionPass

/-- A re-indented region has characters of the text and spaces. -/
theorem mem_of_mem_indentRegion {text : Text} {start stop : Int} {cursor : Option Int} {width : Int}
    {c : Char} (member : c ∈ (indentRegion text start stop cursor width).1) :
    c ∈ text ∨ c = ' ' := by
  rw [indentRegion] at member
  rcases RegionPass.mem_of_mem_run member with inText | space
  · exact .inl (Snapshot.text_scan text false ▸ inText)
  · exact .inr space

/-- Spaces that an edit puts in are shown as they are. -/
theorem Snapshot.shown_indent (s : Snapshot) (start : Nat) (advice : Advice) (cursor : Int)
    (changed : (s.indentEdit start advice cursor).changed = true) :
    Text.shown (s.indentEdit start advice cursor).indent =
      (s.indentEdit start advice cursor).indent :=
  Text.shown_eq_self_iff.mpr fun _ member => eq_space_of_mem_indent changed member ▸ rfl

/-- A re-indented text is shown as it is. -/
theorem shown_indentRegion {text : Text} (clear : Text.shown text = text) (start stop : Int)
    (cursor : Option Int) (width : Int) :
    Text.shown (indentRegion text start stop cursor width).1 =
      (indentRegion text start stop cursor width).1 :=
  Text.shown_eq_self_of_mem clear fun _ member => (mem_of_mem_indentRegion member).imp_right .inr

/-- A text with a broken line is shown as it is. -/
theorem shown_newlineAndIndent {text : Text} (clear : Text.shown text = text) (cursor width : Int) :
    Text.shown (newlineAndIndent text cursor width).1 = (newlineAndIndent text cursor width).1 :=
  Text.shown_eq_self_of_mem clear fun _ member => mem_of_mem_newlineAndIndent member

/-! ### Breaking a line -/

/-- What is left of the front of a line below the text `a` when the line is broken behind it. -/
def brokenFront (a front : Text) : Text :=
  front.take (front.length - droppedBlanks (Mode.code.cells (a ++ front)).reverse)

/-- The blanks that a line break drops stand on the line. -/
theorem droppedBlanks_le {a : Text} (ends : Text.EndsLine a) (front : Text) :
    droppedBlanks (Mode.code.cells (a ++ front)).reverse ≤ front.length := by
  have stops : (Mode.code.cells a).reverse.takeWhile
      (fun cell => cell.isCode && isIndentation cell.char) = [] := by
    rcases ends.cases with rfl | ⟨init, rfl⟩
    · rfl
    · rw [Mode.cells_append, List.reverse_append]
      exact List.takeWhile_cons_of_neg (by simp [isIndentation])
  rw [droppedBlanks, Mode.cells_append, List.reverse_append, List.takeWhile_append, stops]
  split
  · simp
  · have fewer := (List.takeWhile_sublist (l := ((Mode.code.after a).cells front).reverse)
      (fun cell => cell.isCode && isIndentation cell.char)).length_le
    rwa [List.length_reverse, Mode.length_cells] at fewer

/-- **Breaking a line makes two lines of it.** The first is what stands before the break, without the
code blanks at its end, and the second is what stands behind, re-indented. All other lines stay. -/
theorem newlineAndIndent_lines {text line : Text} {above below : List Text} {column : Nat}
    (division : text.lines = above ++ line :: below) (within : column ≤ line.length) (width : Int) :
    (newlineAndIndent text ((block above).length + column : Nat) width).1 =
      unlines (above ++ brokenFront (block above) (line.take column) ::
        reindentedLine width
          (block (above ++ [brokenFront (block above) (line.take column)])) (line.drop column) ::
        below) := by
  have place : (block above ++ line.take column).length = (block above).length + column :=
    Text.length_block_append_take within
  have pieces := Text.eq_block_append_column division column
  have before : (Snapshot.ofText text).cellsBefore ((block above).length + column) =
      (Mode.code.cells (block above ++ line.take column)).reverse := by
    rw [Snapshot.cellsBefore, ← place, pieces, Snapshot.take_cells_ofText (Nat.le_refl _),
      ← Mode.length_cells .code, List.take_length]
  have fewer := droppedBlanks_le (Text.endsLine_block above) (line.take column)
  have size : (line.take column).length = column := List.length_take_of_le within
  -- The text before the break, without the blanks that are dropped.
  have front : text.take ((block above).length + column -
        droppedBlanks (Mode.code.cells (block above ++ line.take column)).reverse) =
      block above ++ brokenFront (block above) (line.take column) := by
    have cut : (block above).length + column -
          droppedBlanks (Mode.code.cells (block above ++ line.take column)).reverse =
        (block above).length + ((line.take column).length -
          droppedBlanks (Mode.code.cells (block above ++ line.take column)).reverse) := by
      omega
    rw [cut, pieces, List.append_assoc, List.take_length_add_append,
      List.take_append_of_le_length (Nat.sub_le _ _), brokenFront]
  have back : text.drop ((block above).length + column) = unlines (line.drop column :: below) := by
    rw [← place, pieces, List.drop_left]
  have start : (block above).length + column -
        droppedBlanks (Mode.code.cells (block above ++ line.take column)).reverse + 1 =
      (block (above ++ [brokenFront (block above) (line.take column)])).length := by
    have inside := Text.length_block_add_le division within
    have shorter := congrArg List.length front
    rw [List.length_take_of_le (Nat.le_trans (Nat.sub_le _ _) inside)] at shorter
    rw [Text.block_concat, List.length_append, ← shorter, List.length_singleton]
  have broken : block above ++ brokenFront (block above) (line.take column) ++
        '\n' :: unlines (line.drop column :: below) =
      block (above ++ [brokenFront (block above) (line.take column)]) ++
        unlines (line.drop column :: below) := by
    rw [Text.block_concat, List.append_assoc _ ['\n'], List.singleton_append]
  have offset : ((block above).length + column -
        droppedBlanks (Mode.code.cells (block above ++ line.take column)).reverse : Nat) + (1 : Int) =
      ((block (above ++ [brokenFront (block above) (line.take column)])).length : Nat) := by
    rw [← start]
    rfl
  simp only [newlineAndIndent,
    Text.clamp_natCast_of_le (Text.length_block_add_le division within), before, front, back, broken,
    offset]
  rw [indentLine_apply_line (Text.endsLine_block _), ← Text.unlines_append _ (List.cons_ne_nil _ _),
    List.append_assoc, List.singleton_append]

/-! ### Re-indenting one line -/

/-- Blanks that do not stand at their column are replaced by other ones. -/
theorem freshBlanks_ne {target : Int} {blanks : Text} (nonneg : 0 ≤ target)
    (moves : (textWidth blanks : Int) ≠ target) : freshBlanks target blanks ≠ blanks := by
  rw [freshBlanks, if_neg moves]
  intro same
  exact moves (same ▸ textWidth_spaces nonneg)

/-- With a width that is not negative, no line is advised to stand left of the margin. -/
theorem Snapshot.target_adviseInside_nonneg (s : Snapshot) (opener : Option Int) (lineStart : Int)
    {width : Int} (nonneg : 0 ≤ width) : 0 ≤ (s.adviseInside opener lineStart width).target := by
  have body (opener : Int) : 0 ≤ s.bodyColumn opener width :=
    Int.add_nonneg (Int.natCast_nonneg _) nonneg
  unfold adviseInside
  split
  · exact Int.le_refl 0
  · split
    · exact body _
    · split
      · exact body _
      · exact Int.natCast_nonneg _
    · split
      · exact body _
      · exact Int.natCast_nonneg _
    · exact Int.le_refl 0

/-- An edit that says it changes something writes other blanks. -/
theorem Snapshot.indent_ne_of_changed {s : Snapshot} {a rest : Text} (division : s.text = a ++ rest)
    (ends : Text.EndsLine a) {advice : Advice} (nonneg : 0 ≤ advice.target) (cursor : Int)
    (changed : (s.indentEdit a.length advice cursor).changed = true) :
    (s.indentEdit a.length advice cursor).indent ≠ rest.takeWhile isIndentation := by
  cases inside : s.inString a.length with
  | true =>
      rw [indentEdit_of_inside division ends inside] at changed
      exact absurd changed Bool.false_ne_true
  | false =>
      rw [indentEdit_of_outside division ends inside] at changed ⊢
      exact freshBlanks_ne nonneg (by simpa using changed)

namespace Document

/-- A document takes over a text with a cursor: it then counts as modified if it did before or if its
text was another one. -/
structure Takes (before after : Document) (text : Text) (cursor : Int) : Prop where
  shows : after.Shows text cursor
  modified_iff : after.modified = true ↔ before.modified = true ∨ text ≠ before.text

end Document

namespace Editor

variable {e : Editor} {cursor anchor : Nat}

/-- **Re-indenting the line of the cursor applies the edit of that line.** -/
theorem reindentLine_takes (stands : e.document.StandsAt cursor anchor)
    (nonneg : 0 ≤ e.indentWidth) :
    let edit := indentLine e.text (Text.lineStart e.document.held cursor) (some (cursor : Int))
      e.indentWidth
    e.document.Takes e.reindentLine.document (edit.apply e.text) edit.cursor := by
  have inside : cursor ≤ e.document.held.length := e.document.length_text ▸ stands.cursor_le
  obtain ⟨above, line, below, division, place, endsAbove, single⟩ := Text.exists_line_at inside
  have start : Text.lineStart e.document.held cursor = (Text.shown above).length := by
    rw [← place, division, Text.lineStart_append endsAbove single below, Text.length_shown]
  have text_eq : e.text = Text.shown above ++ Text.shown (line ++ below) := by
    rw [Editor.text, Document.text, division, List.append_assoc, Text.shown_append]
  have ends := endsAbove.shown
  -- From here on only the text counts that is shown.
  generalize Text.shown above = a at start text_eq ends
  generalize Text.shown (line ++ below) = tail at text_eq
  have snapshot_text : (Snapshot.ofText e.text).text = a ++ tail := by
    rw [Snapshot.text_ofText, text_eq]
  have edit_eq : indentLine e.text a.length (some (cursor : Int)) e.indentWidth =
      (Snapshot.ofText e.text).indentEdit a.length
        ((Snapshot.ofText e.text).advise a.length e.indentWidth) cursor := by
    rw [text_eq]
    exact indentLine_of_endsLine ends tail cursor e.indentWidth
  have target := (Snapshot.ofText e.text).target_adviseInside_nonneg
    (((Snapshot.ofText e.text).enclosing? a.length).map Int.ofNat) a.length nonneg
  have differs := Snapshot.indent_ne_of_changed snapshot_text ends target cursor
  have applied := Snapshot.indentEdit_apply snapshot_text ends
    ((Snapshot.ofText e.text).advise a.length e.indentWidth) cursor
  have editStart := Snapshot.indentEdit_start (Snapshot.ofText e.text) a.length
    ((Snapshot.ofText e.text).advise a.length e.indentWidth) cursor
  have editStop := Snapshot.indentEdit_stop snapshot_text ends
    ((Snapshot.ofText e.text).advise a.length e.indentWidth) cursor
  have clear := Snapshot.shown_indent (Snapshot.ofText e.text) a.length
    ((Snapshot.ofText e.text).advise a.length e.indentWidth) cursor
  have whole : e.document.text = a ++ tail.takeWhile isIndentation ++
      tail.dropWhile isIndentation := by
    rw [List.append_assoc, List.takeWhile_append_dropWhile]
    exact text_eq
  simp only [reindentLine, Document.blockStart, stands.offset_eq, onDocument, start]
  rw [Snapshot.advise] at edit_eq applied editStart editStop clear
  rw [edit_eq]
  rw [← text_eq] at applied
  generalize (Snapshot.ofText e.text).indentEdit a.length _ _ = edit at *
  cases changed : edit.changed with
  | false =>
      have same : edit.apply e.text = e.text := by rw [IndentEdit.apply, changed]; rfl
      rw [same, if_neg Bool.false_ne_true]
      exact ⟨Document.shows_place rfl _, by simp [Editor.text]⟩
  | true =>
      have other := differs changed
      rw [if_pos rfl, applied, editStart, editStop, Document.replaceOffsets_eq whole]
      refine ⟨Document.shows_place (Document.text_replace whole (clear changed)) _, ?_⟩
      have moves : a ++ edit.indent ++ tail.dropWhile isIndentation ≠ e.document.text := by
        rw [whole, Ne, List.append_left_inj, List.append_right_inj]
        exact other
      have edits : ((tail.takeWhile isIndentation).isEmpty && edit.indent.isEmpty) = false := by
        rw [Bool.eq_false_iff, Ne, Bool.and_eq_true, List.isEmpty_iff, List.isEmpty_iff]
        exact fun both => other (both.2.trans both.1.symm)
      rw [Document.modified_place, Document.modified_replace, edits, Bool.not_false, Bool.or_true]
      exact iff_of_true rfl (Or.inr moves)

/-! ### Re-indenting all lines -/

/-- **Re-indenting all lines takes over the re-indented text.** This is an edit also where the text
stays, if the document holds a character that it does not show. -/
theorem reindent_shows (stands : e.document.StandsAt cursor anchor) :
    let result := indentRegion e.text 0 e.text.length (some (cursor : Int)) e.indentWidth
    e.reindent.document.Shows result.1 result.2 ∧
      (e.reindent.document.modified = true ↔
        e.document.modified = true ∨ result.1 ≠ e.text ∨ e.text ≠ e.document.held) := by
  intro result
  have clear : Text.shown result.1 = result.1 := shown_indentRegion e.document.shown_text _ _ _ _
  have whole : e.document.text = [] ++ e.document.text ++ [] := by simp
  have held : Text.slice e.document.held 0 e.document.text.length = e.document.held := by
    have pieces := Text.slice_append [] e.document.held []
    rwa [List.nil_append, List.append_nil, List.length_nil, ← e.document.length_text] at pieces
  obtain ⟨text_eq, modified_eq⟩ :
      (replaceLines e.document 0 e.text.length result.1).1.text = result.1 ∧
        (replaceLines e.document 0 e.text.length result.1).1.modified =
          (e.document.modified || decide (e.document.held ≠ result.1)) := by
    have taken := replaceLines_eq whole clear
    simp only [List.nil_append, List.append_nil, List.length_nil, Int.ofNat_zero, held] at taken
    exact taken
  have document : e.reindent.document =
      (replaceLines e.document 0 e.text.length result.1).1.placeFrom
        (replaceLines e.document 0 e.text.length result.1).2
        (Text.utf16Position result.1 result.2) := by
    simp only [reindent, reindentRange, stands.offset_eq, onDocument, result]
  have differs : e.document.held ≠ result.1 ↔ result.1 ≠ e.text ∨ e.text ≠ e.document.held := by
    constructor
    · intro other
      by_contra same
      obtain ⟨kept, shown⟩ := not_or.mp same
      exact other ((not_not.mp shown).symm.trans (not_not.mp kept).symm)
    · rintro other same
      have shows : e.text = result.1 := by rw [Editor.text, Document.text, same, clear]
      exact other.elim (fun changed => changed shows.symm) fun hidden => hidden (shows.trans same.symm)
  rw [document, Document.placeFrom_eq text_eq]
  refine ⟨Document.shows_place text_eq _, ?_⟩
  rw [Document.modified_place, modified_eq, Bool.or_eq_true, decide_eq_true_eq, differs]

/-! ### Line breaks -/

/-- **A line break takes over the text with the line broken where the selection was.** It always is
an edit, and it changes the text if nothing was selected. -/
theorem newline_shows (stands : e.document.StandsAt cursor anchor) :
    let rest := e.text.take (min cursor anchor) ++ e.text.drop (max cursor anchor)
    let result := newlineAndIndent rest (min cursor anchor : Nat) e.indentWidth
    e.newline.document.Shows result.1 result.2 ∧ e.newline.document.modified = true ∧
      (cursor = anchor → result.1 ≠ e.text) := by
  have order : min cursor anchor ≤ max cursor anchor := by omega
  have inside : max cursor anchor ≤ e.document.text.length :=
    Nat.max_le.mpr ⟨stands.cursor_le, stands.anchor_le⟩
  obtain ⟨x, selected, y, division, start, stop⟩ := Text.exists_append_append order inside
  have remaining : e.text.take (min cursor anchor) ++ e.text.drop (max cursor anchor) = x ++ y := by
    rw [Editor.text, division, ← stop, List.drop_left, ← start, List.append_assoc, List.take_left]
  have selectionStart : e.document.selectionStart = Text.utf16Length x := by
    rw [stands.selectionStart_eq, division, List.append_assoc, ← start, Text.utf16Position_append]
  have selectionStop : e.document.selectionStop = Text.utf16Length (x ++ selected) := by
    rw [stands.selectionStop_eq, division, ← stop, Text.utf16Position_append]
  -- What is left of the document, and the line on which the selection was.
  have cleared := Document.text_replace division (rfl : Text.shown [] = [])
  rw [List.append_nil] at cleared
  have offset := Document.offsetOf_append cleared
  have within : x.length ≤ (x ++ y).length := by simp
  obtain ⟨above, line, below, column, lines, place, columnWithin⟩ :=
    Text.exists_line_of_offset within
  have result := newlineAndIndent_lines lines columnWithin e.indentWidth
  have bounds := Text.lineBounds_of_lines lines columnWithin lines columnWithin
  rw [← place] at result bounds
  have old : x ++ y = block above ++ line ++ Text.trail below := by
    rw [Text.eq_block_append_unlines lines, Text.unlines_cons_eq_trail, List.append_assoc]
  generalize brokenFront (block above) (line.take column) = front at result
  generalize reindentedLine e.indentWidth (block (above ++ [front])) (line.drop column) = back
    at result
  have new : (newlineAndIndent (x ++ y) x.length e.indentWidth).1 =
      block above ++ (front ++ '\n' :: back) ++ Text.trail below := by
    rw [result, Text.unlines_append above (List.cons_ne_nil front _),
      Text.unlines_cons (List.cons_ne_nil back below), Text.unlines_cons_eq_trail]
    simp
  have newLast : (((block above ++ line).length : Nat) : Int) +
        ((newlineAndIndent (x ++ y) x.length e.indentWidth).1.length - (x ++ y).length) =
      ((block above ++ (front ++ '\n' :: back)).length : Nat) := by
    rw [new, old]
    simp only [List.length_append, List.length_cons]
    omega
  have document : e.newline.document =
      ((e.document.replace (Text.utf16Length x) (Text.utf16Length (x ++ selected)) []).replace
        (Text.utf16Length (block above)) (Text.utf16Length (block above ++ line))
        (front ++ '\n' :: back)).place
          (Text.utf16Position (newlineAndIndent (x ++ y) x.length e.indentWidth).1
            (newlineAndIndent (x ++ y) x.length e.indentWidth).2) := by
    simp only [newline, onDocument, Document.removeSelection, selectionStart, selectionStop, offset,
      cleared, bounds, newLast]
    rw [new, Text.slice_append, Document.replaceOffsets_eq (cleared.trans old)]
  have clear : Text.shown (front ++ '\n' :: back) = front ++ '\n' :: back := by
    have shown := shown_newlineAndIndent (cleared ▸ Document.shown_text _) x.length e.indentWidth
    rw [new] at shown
    exact Text.shown_eq_self_of_mem shown fun c member =>
      .inl (List.mem_append_left _ (List.mem_append_right _ member))
  rw [remaining, ← start, document]
  refine ⟨Document.shows_place ?_ _, ?_, ?_⟩
  · rw [Document.text_replace (cleared.trans old) clear, new]
  · rw [Document.modified_place, Document.modified_replace]
    simp
  · intro same
    have empty : selected = [] := by
      rw [List.length_append] at stop
      exact List.length_eq_zero_iff.mp (by omega)
    rw [new, Editor.text, division, empty, List.append_nil, old, Ne, List.append_left_inj,
      List.append_right_inj]
    intro kept
    have member : line ∈ Text.lines (x ++ y) := by
      rw [lines]
      exact List.mem_append_right above List.mem_cons_self
    exact Text.not_mem_of_mem_lines member (kept ▸ by simp)

/-! ### The three commands -/

/-- **The indentation commands do to the document what the functions on texts say.** -/
theorem indentation_commands (stands : e.document.StandsAt cursor anchor)
    (nonneg : 0 ≤ e.indentWidth) :
    (let edit :=
       indentLine e.text (Text.lineStart e.document.held cursor) (some (cursor : Int)) e.indentWidth
     e.document.Takes e.reindentLine.document (edit.apply e.text) edit.cursor) ∧
    (let result := indentRegion e.text 0 e.text.length (some (cursor : Int)) e.indentWidth
     e.reindent.document.Shows result.1 result.2 ∧
       (e.reindent.document.modified = true ↔
         e.document.modified = true ∨ result.1 ≠ e.text ∨ e.text ≠ e.document.held)) ∧
    (let rest := e.text.take (min cursor anchor) ++ e.text.drop (max cursor anchor)
     let result := newlineAndIndent rest (min cursor anchor : Nat) e.indentWidth
     e.newline.document.Shows result.1 result.2 ∧ e.newline.document.modified = true ∧
       (cursor = anchor → result.1 ≠ e.text)) :=
  ⟨reindentLine_takes stands nonneg, reindent_shows stands, newline_shows stands⟩

/-- A document with a character of two units, of which the last one is selected. -/
theorem indentation_commands_selected :
    let e : Editor :=
      { Editor.new .dark 2 with document := { held := "(😀\nb".toList, position := 5, anchor := 4 } }
    e.document.StandsAt 4 3 ∧ 0 ≤ e.indentWidth ∧ e.reindent.text = "(😀\n  b".toList ∧
      e.reindent.document.modified = true ∧ e.newline.document.modified = true := by
  intro e
  have stands : e.document.StandsAt 4 3 := ⟨by decide, by decide, by decide, by decide⟩
  have nonneg : 0 ≤ e.indentWidth := by decide
  obtain ⟨-, ⟨shows, edited⟩, -, broken, -⟩ := indentation_commands stands nonneg
  have result : (indentRegion e.text 0 e.text.length (some (4 : Nat)) e.indentWidth).1 =
      "(😀\n  b".toList :=
    (indentRegion_whole e.text (some (4 : Nat)) e.indentWidth).trans (by decide)
  refine ⟨stands, nonneg, shows.text_eq.trans result, edited.mpr (.inr (.inl ?_)), broken⟩
  rw [result]
  decide

/-- A line break that is put in the place of the same line break is an edit all the same. -/
theorem not_takes_newline :
    let e : Editor :=
      { Editor.new .dark 2 with document := { held := "a\nb".toList, position := 2, anchor := 1 } }
    let rest := e.text.take (min 2 1) ++ e.text.drop (max 2 1)
    let result := newlineAndIndent rest (min 2 1 : Nat) e.indentWidth
    e.document.StandsAt 2 1 ∧ 0 ≤ e.indentWidth ∧
      ¬ e.document.Takes e.newline.document result.1 result.2 := by
  intro e rest result
  have stands : e.document.StandsAt 2 1 := ⟨by decide, by decide, by decide, by decide⟩
  refine ⟨stands, by decide, fun takes => ?_⟩
  have same : result.1 = e.document.text := by
    have lines : Text.lines rest = [] ++ "ab".toList :: [] := by decide
    have within : 1 ≤ "ab".toList.length := by decide
    exact (newlineAndIndent_lines lines within e.indentWidth).trans (by decide)
  rcases takes.modified_iff.mp (newline_shows stands).2.1 with before | other
  · exact absurd before (by decide)
  · exact other same

end Editor

end LispEditor
