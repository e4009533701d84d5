import LispEditor.Indent.Edit
import LispEditor.Proofs.BlankSplice

/-!
# The edit of one line

For a text that is divided before a line, the edit of that line is written out: it replaces the
blanks at the start of the line by `freshBlanks`, and nothing else. Everything that is said later
about edits follows from these equations, not from how an edit is found.

* `indentEdit_of_outside`, `indentEdit_of_inside`: the edit, for a line that begins outside strings
  and for one that begins inside.
* `indentEdit_apply`: the text after it.
-/

namespace LispEditor

/-! ### Blanks of a line -/

theorem isSeparator_of_isIndentation {c : Char} (blank : isIndentation c = true) :
    isSeparator c = true := by
  simp only [isIndentation, List.mem_cons, List.not_mem_nil, or_false, decide_eq_true_eq] at blank
  rcases blank with rfl | rfl <;> rfl

theorem ne_newline_of_isIndentation {c : Char} (blank : isIndentation c = true) : c ≠ '\n' := by
  rintro rfl
  cases blank

theorem isIndentation_of_mem_spaces {column : Int} {c : Char} (member : c ∈ spaces column) :
    isIndentation c = true := by
  rw [(List.mem_replicate.mp member).2]
  rfl

theorem foldl_nextColumn_spaces (column count : Nat) :
    (List.replicate count ' ').foldl nextColumn column = column + count := by
  induction count generalizing column with
  | zero => rfl
  | succ count ih =>
      rw [List.replicate_succ, List.foldl_cons, ih]
      have next : nextColumn column ' ' = column + 1 := rfl
      omega

/-- Spaces are as wide as they are asked to be. -/
theorem textWidth_spaces {column : Int} (nonneg : 0 ≤ column) :
    (textWidth (spaces column) : Int) = column := by
  rw [textWidth, spaces, foldl_nextColumn_spaces]
  omega

/-- The blanks that a line gets whose blanks are `blanks` and which should stand at `target`. -/
def freshBlanks (target : Int) (blanks : Text) : Text :=
  if (textWidth blanks : Int) = target then blanks else spaces target

theorem isIndentation_of_mem_freshBlanks {target : Int} {blanks : Text}
    (old : ∀ c ∈ blanks, isIndentation c = true) :
    ∀ c ∈ freshBlanks target blanks, isIndentation c = true := by
  unfold freshBlanks
  split
  · exact old
  · exact fun c => isIndentation_of_mem_spaces

/-- Blanks that a line has got are not replaced again. -/
theorem freshBlanks_idem (target : Int) (blanks : Text) :
    freshBlanks target (freshBlanks target blanks) = freshBlanks target blanks := by
  by_cases stands : (textWidth blanks : Int) = target
  · rw [freshBlanks, freshBlanks, if_pos stands, if_pos stands]
  · have fresh : freshBlanks target blanks = spaces target := if_neg stands
    rw [fresh, freshBlanks]
    split <;> rfl

/-! ### The edit -/

namespace Snapshot

variable {s : Snapshot} {a rest : Text}

/-- The text before the end of a line's blanks, without the lines above, is the blanks. -/
theorem drop_take_indentationEnd (division : s.text = a ++ rest) (ends : Text.EndsLine a) :
    (s.text.take (s.indentationEnd (a.length : Nat))).drop a.length =
      rest.takeWhile isIndentation := by
  have pieces : s.text = (a ++ rest.takeWhile isIndentation) ++ rest.dropWhile isIndentation := by
    rw [List.append_assoc, List.takeWhile_append_dropWhile, division]
  rw [indentationEnd_of_endsLine division ends, pieces, ← List.length_append, List.take_left,
    List.drop_left]

theorem columnAt_indentationEnd (division : s.text = a ++ rest) (ends : Text.EndsLine a) :
    s.columnAt (s.indentationEnd (a.length : Nat) : Nat) =
      textWidth (rest.takeWhile isIndentation) := by
  have pieces : s.text = a ++ rest.takeWhile isIndentation ++ rest.dropWhile isIndentation := by
    rw [List.append_assoc, List.takeWhile_append_dropWhile, division]
  have single : '\n' ∉ rest.takeWhile isIndentation :=
    fun member => ne_newline_of_isIndentation (List.mem_takeWhile_imp member) rfl
  rw [indentationEnd_of_endsLine division ends, ← List.length_append]
  exact columnAt_append pieces ends single

/-- A line that begins inside a string keeps its blanks and the cursor. -/
theorem indentEdit_of_inside (division : s.text = a ++ rest) (ends : Text.EndsLine a)
    (inside : s.inString a.length = true) (advice : Advice) (cursor : Int) :
    s.indentEdit a.length advice cursor =
      ⟨a.length, (a ++ rest.takeWhile isIndentation).length, rest.takeWhile isIndentation, cursor,
        false⟩ := by
  rw [indentEdit, if_pos inside, editNone]
  simp only [drop_take_indentationEnd division ends]
  simp only [indentationEnd_of_endsLine division ends, List.length_append]

/-- A line that begins outside strings gets the blanks of its column. -/
theorem indentEdit_of_outside (division : s.text = a ++ rest) (ends : Text.EndsLine a)
    (outside : s.inString a.length = false) (advice : Advice) (cursor : Int) :
    s.indentEdit a.length advice cursor =
      ⟨a.length, (a ++ rest.takeWhile isIndentation).length,
        freshBlanks advice.target (rest.takeWhile isIndentation),
        moveCursor a.length (a ++ rest.takeWhile isIndentation).length
          (freshBlanks advice.target (rest.takeWhile isIndentation)).length cursor,
        (textWidth (rest.takeWhile isIndentation) : Int) != advice.target⟩ := by
  have indent : (if (textWidth (rest.takeWhile isIndentation) : Int) != advice.target then
        spaces advice.target else rest.takeWhile isIndentation) =
      freshBlanks advice.target (rest.takeWhile isIndentation) := by
    unfold freshBlanks
    by_cases stands : (textWidth (rest.takeWhile isIndentation) : Int) = advice.target
    · simp [stands]
    · simp [stands]
  rw [indentEdit, if_neg (by rw [outside]; exact Bool.false_ne_true), editTo]
  simp only [columnAt_indentationEnd division ends, drop_take_indentationEnd division ends, indent]
  simp only [indentationEnd_of_endsLine division ends, List.length_append]

theorem indentEdit_start (s : Snapshot) (start : Nat) (advice : Advice) (cursor : Int) :
    (s.indentEdit start advice cursor).start = start := by
  unfold indentEdit
  split <;> rfl

theorem indentEdit_stop (division : s.text = a ++ rest) (ends : Text.EndsLine a) (advice : Advice)
    (cursor : Int) :
    (s.indentEdit a.length advice cursor).stop =
      ((a ++ rest.takeWhile isIndentation).length : Nat) := by
  cases inside : s.inString a.length with
  | true => rw [indentEdit_of_inside division ends inside]
  | false => rw [indentEdit_of_outside division ends inside]

/-- **An edit replaces the blanks of its line and leaves all other text.** -/
theorem indentEdit_apply (division : s.text = a ++ rest) (ends : Text.EndsLine a) (advice : Advice)
    (cursor : Int) :
    (s.indentEdit a.length advice cursor).apply (a ++ rest) =
      a ++ (s.indentEdit a.length advice cursor).indent ++ rest.dropWhile isIndentation := by
  have pieces : a ++ rest = a ++ rest.takeWhile isIndentation ++ rest.dropWhile isIndentation := by
    rw [List.append_assoc, List.takeWhile_append_dropWhile]
  cases inside : s.inString a.length with
  | true =>
      rw [indentEdit_of_inside division ends inside]
      exact pieces
  | false =>
      rw [indentEdit_of_outside division ends inside]
      simp only [IndentEdit.apply]
      split
      · rw [pieces, Text.splice_append]
      · next same =>
          have stands : (textWidth (rest.takeWhile isIndentation) : Int) = advice.target := by
            simpa using same
          rw [freshBlanks, if_pos stands]
          exact pieces

/-- The blanks that an edit writes are blanks. -/
theorem isIndentation_of_mem_indent (division : s.text = a ++ rest) (ends : Text.EndsLine a)
    (advice : Advice) (cursor : Int) :
    ∀ c ∈ (s.indentEdit a.length advice cursor).indent, isIndentation c = true := by
  have old : ∀ c ∈ rest.takeWhile isIndentation, isIndentation c = true :=
    fun c => List.mem_takeWhile_imp
  cases inside : s.inString a.length with
  | true =>
      rw [indentEdit_of_inside division ends inside]
      exact old
  | false =>
      rw [indentEdit_of_outside division ends inside]
      exact isIndentation_of_mem_freshBlanks old

end Snapshot

/-! ### The edit of the line of an offset -/

/-- The line of an offset that is clamped to a place on the line. -/
theorem Snapshot.lineStart_ofText {text a line rest : Text} (division : text = a ++ line ++ rest)
    (ends : Text.EndsLine a) (single : '\n' ∉ line) {offset : Int}
    (place : Text.clamp text.length offset = (a ++ line).length) :
    (ofText text).lineStart offset = a.length := by
  have here : (ofText text).clamp offset = (a ++ line).length := by
    rw [← place]
    exact congrArg (Text.clamp · offset) (size_scan text false)
  have whole : (ofText text).text = a ++ line ++ rest := by
    rw [← division]
    exact text_ofText text
  rw [lineStart, here, whole, Text.lineStart_append ends single]

/-- Which offset of a line is asked for does not matter, if the cursor is given. -/
theorem indentLine_eq {text a line rest : Text} (division : text = a ++ line ++ rest)
    (ends : Text.EndsLine a) (single : '\n' ∉ line) {offset : Int}
    (place : Text.clamp text.length offset = (a ++ line).length) (cursor : Int) (width : Int) :
    indentLine text offset (some cursor) width =
      (Snapshot.ofText text).indentEdit a.length ((Snapshot.ofText text).advise a.length width)
        cursor := by
  simp only [indentLine, Snapshot.lineStart_ofText division ends single place, Option.getD_some]

theorem indentLine_of_endsLine {a : Text} (ends : Text.EndsLine a) (rest : Text)
    (cursor : Int) (width : Int) :
    indentLine (a ++ rest) a.length (some cursor) width =
      (Snapshot.ofText (a ++ rest)).indentEdit a.length
        ((Snapshot.ofText (a ++ rest)).advise a.length width) cursor := by
  have division : a ++ rest = a ++ [] ++ rest := by rw [List.append_nil]
  refine indentLine_eq division ends List.not_mem_nil ?_ cursor width
  · rw [List.append_nil]
    refine Text.clamp_natCast_of_le ?_
    rw [List.length_append]
    exact Nat.le_add_right _ _

end LispEditor
