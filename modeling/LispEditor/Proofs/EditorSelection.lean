import LispEditor.Proofs.EditorIndent
import LispEditor.Proofs.RegionRange

/-!
# Re-indenting a selection

The editor re-indents the lines of a selection on its whole text, and then takes over the lines that
the selection touches. This gives the document the re-indented text exactly if no line below them was
re-indented. A region whose end is overtaken goes on below its range, and then the document may lose
or gain text.

* `lines_append_trail`: the lines below a piece of text are read off its end.
* `sameButIndentation_indentRegion`: re-indenting changes blanks at the start of lines.
* `Editor.reindented_iff_keepsBelow`: the exact condition.
* `Editor.reindentSelection_iff`: the same, and that an end that is not overtaken is enough.
* `Editor.not_reindented_shrunk`: a selection after which the document has a line too many.
-/

namespace LispEditor

open Text (unlines block)

namespace Text

/-! ### The last lines of a text -/

theorem unlines_append_trail {front : List Text} (nonempty : front ≠ []) (below : List Text) :
    unlines (front ++ below) = unlines front ++ trail below := by
  induction front with
  | nil => exact absurd rfl nonempty
  | cons line others ih =>
      by_cases more : others = []
      · subst more
        exact unlines_cons_eq_trail line below
      · have follows : others ++ below ≠ [] := List.append_ne_nil_of_left_ne_nil more below
        rw [List.cons_append, unlines_cons follows, unlines_cons more, ih more, List.append_assoc]
        rfl

/-- Lines that stand behind a piece of text, each with a newline before it, are its last lines. -/
theorem lines_append_trail (front : Text) {below : List Text} (single : ∀ line ∈ below, '\n' ∉ line) :
    lines (front ++ trail below) = lines front ++ below := by
  have nonempty := lines_ne_nil front
  have clean : ∀ line ∈ lines front ++ below, '\n' ∉ line := by
    intro line member
    rcases List.mem_append.mp member with first | last
    · exact not_mem_of_mem_lines first
    · exact single line last
  have whole : front ++ trail below = unlines (lines front ++ below) := by
    rw [unlines_append_trail nonempty, unlines_lines]
  rw [whole, lines_unlines (List.append_ne_nil_of_left_ne_nil nonempty below) clean]

end Text

/-! ### What stays -/

/-- Two texts whose lines differ in nothing but the blanks at their start. -/
def SameButIndentation (text result : Text) : Prop :=
  result.lines.map (·.dropWhile isIndentation) = text.lines.map (·.dropWhile isIndentation)

/-- Two texts with the same lines below the line of `offset` in the first. -/
def KeepsBelow (text result : Text) (offset : Nat) : Prop :=
  result.lines.drop (text.lineNumber offset) = text.lines.drop (text.lineNumber offset)

/-- Visited lines keep everything but their blanks. -/
theorem map_dropWhile_visitLines (width : Int) (a : Text) (left : Int) (lines : List Text) :
    (visitLines width a left lines).map (·.dropWhile isIndentation) =
      (lines.take (visitLines width a left lines).length).map (·.dropWhile isIndentation) := by
  induction lines generalizing a left with
  | nil => rfl
  | cons line below ih =>
      by_cases more : 0 < leftBehind line (reindentedLine width a line) left
      · rw [visitLines_next more, List.length_cons, List.take_succ_cons, List.map_cons, List.map_cons,
          ih, dropWhile_reindentedLine]
      · rw [visitLines_last more, List.length_singleton, List.take_succ_cons, List.take_zero,
          List.map_singleton, List.map_singleton, dropWhile_reindentedLine]

namespace Visited

variable {text result : Text} {visits : List Nat} {above old new : List Text}

/-- Below the lines that were visited nothing has changed. -/
theorem drop_eq (visited : Visited text result visits above old new) {count : Nat}
    (enough : new.length ≤ count) :
    result.lines.drop (above.length + count) = text.lines.drop (above.length + count) := by
  have rest : (new ++ old.drop new.length).drop count = old.drop count := by
    rw [List.drop_append, List.drop_of_length_le enough, List.nil_append, List.drop_drop,
      Nat.add_sub_cancel' enough]
  rw [visited.before, visited.after, List.drop_length_add_append, List.drop_length_add_append, rest]

end Visited

section Region

variable {text : Text} {start stop : Nat}

/-- **Re-indenting a region changes nothing but blanks at the start of lines.** -/
theorem sameButIndentation_indentRegion (order : start ≤ stop) (inside : stop ≤ text.length)
    (cursor : Option Int) (width : Int) :
    SameButIndentation text (indentRegion text start stop cursor width).1 := by
  obtain ⟨above, line, rest, startColumn, division, start_eq, startWithin⟩ :=
    Text.exists_line_of_offset (Nat.le_trans order inside)
  have visited := visited_indentRegion division startWithin start_eq order cursor width
  rw [SameButIndentation, visited.after, visited.before, List.map_append, List.map_append,
    List.map_append, map_dropWhile_visitLines, ← List.map_append, List.take_append_drop]

/-- Where the end of a region is not overtaken, the lines below its range are kept. -/
theorem keepsBelow_of_not_overtakes (order : start ≤ stop) (inside : stop ≤ text.length)
    {cursor : Option Int} {width : Int}
    (held : ¬ Overtakes text (indentRegion text start stop cursor width).1 stop) :
    KeepsBelow text (indentRegion text start stop cursor width).1 stop := by
  obtain ⟨above, line, rest, startColumn, middle, last, below, column, division, range, startWithin,
    within, start_eq, stop_eq⟩ := exists_range order inside
  have visited := visited_indentRegion division startWithin start_eq order cursor width
  have wholeRange : text.lines = above ++ middle ++ last :: below := by
    rw [division, range, List.append_assoc]
  have left : (stop : Int) - (block above).length = (block middle).length + column := by
    rw [stop_eq, Text.block_append, List.length_append]
    omega
  have result : (indentRegion text start stop cursor width).1.lines[(above ++ middle).length]? =
      (linesAfter width (block above) ((block middle).length + column)
        (middle ++ last :: below))[middle.length]? := by
    rw [visited.after, List.length_append, List.getElem?_append_right (Nat.le_add_right _ _),
      Nat.add_sub_cancel_left, left, range]
    rfl
  rw [stop_eq, overtakes_iff wholeRange within, ← stop_eq, result, ← length_visitLines_iff middle within]
    at held
  have few : (visitLines width (block above) (stop - (block above).length)
      (line :: rest)).length ≤ middle.length + 1 := by
    rw [left, range, held, linesLeft]
    split <;> omega
  have number : text.lineNumber stop = above.length + (middle.length + 1) := by
    rw [stop_eq, Text.lineNumber_of_lines wholeRange within, List.length_append, Nat.add_assoc]
  rw [KeepsBelow, number]
  exact visited.drop_eq few

end Region

/-! ### The selection of an editor -/

namespace Document

/-- A document takes over a re-indented text with its cursor, and of its lines nothing but blanks at
their start has changed. -/
structure Reindented (before after : Document) (result : Text × Int) : Prop where
  shows : after.Shows result.1 result.2
  lines : SameButIndentation before.text after.text

end Document

namespace Editor

/-- **A document that takes over the lines behind `above` has the new text exactly if the two texts
agree below these lines.** -/
theorem text_replaceLines_eq_iff {d : Document} {old newText : Text}
    {above inner below newBelow : List Text}
    (pieces : d.text = block above ++ old ++ Text.trail below) (clean : ∀ l ∈ below, '\n' ∉ l)
    (lines : newText.lines = above ++ inner ++ newBelow) (nonempty : inner ≠ [])
    (count : newBelow.length = below.length) (clear : Text.shown newText = newText) :
    (replaceLines d (block above).length ((block above ++ old).length : Nat) newText).1.text =
        newText ↔ newBelow = below := by
  constructor
  · intro same
    obtain ⟨new, taken⟩ := exists_text_replaceLines pieces newText
    have ending : newText.lines = (block above ++ new).lines ++ below := by
      rw [← Text.lines_append_trail _ clean, ← taken, same]
    exact List.append_inj_right' (lines.symm.trans ending) count
  · rintro rfl
    have new : newText = block above ++ unlines inner ++ Text.trail newBelow := by
      have follows : inner ++ newBelow ≠ [] := List.append_ne_nil_of_left_ne_nil nonempty newBelow
      rw [← Text.unlines_lines newText, lines, List.append_assoc, Text.unlines_append above follows,
        Text.unlines_append_trail nonempty, List.append_assoc]
    have clearInner : Text.shown (unlines inner) = unlines inner :=
      Text.shown_eq_self_of_mem clear fun c member => .inl (by
        rw [new]
        exact List.mem_append_left _ (List.mem_append_right _ member))
    rw [new]
    exact (replaceLines_eq pieces clearInner).1

variable {e : Editor} {cursor anchor : Nat}

/-- What re-indenting the selection does, if the selection touches the lines between the bounds. -/
theorem document_reindentSelection (stands : e.document.StandsAt cursor anchor)
    (selected : cursor ≠ anchor) {first last : Int}
    (bounds : Text.lineBounds e.text (min cursor anchor : Nat) (max cursor anchor : Nat) =
      (first, last)) :
    let result := indentRegion e.text (min cursor anchor : Nat) (max cursor anchor : Nat)
      (some (cursor : Int)) e.indentWidth
    e.reindentSelection.document =
      (replaceLines e.document first last result.1).1.placeFrom
        (replaceLines e.document first last result.1).2 (Text.utf16Position result.1 result.2) := by
  have inside : max cursor anchor ≤ e.document.text.length :=
    Nat.max_le.mpr ⟨stands.cursor_le, stands.anchor_le⟩
  have start : e.document.offsetOf e.document.selectionStart = min cursor anchor := by
    rw [stands.selectionStart_eq, Document.offsetOf_utf16Position (by omega)]
  have stop : e.document.offsetOf e.document.selectionStop = max cursor anchor := by
    rw [stands.selectionStop_eq, Document.offsetOf_utf16Position inside]
  simp only [reindentSelection, stands.hasSelection_iff.mpr selected, if_true, start, stop, bounds,
    reindentRange, stands.offset_eq, onDocument]

/-- **The document takes over the re-indented text exactly if the lines below the selection are the
same in both texts.** -/
theorem reindented_iff_keepsBelow (stands : e.document.StandsAt cursor anchor)
    (selected : cursor ≠ anchor) :
    let result := indentRegion e.text (min cursor anchor : Nat) (max cursor anchor : Nat)
      (some (cursor : Int)) e.indentWidth
    e.document.Reindented e.reindentSelection.document result ↔
      KeepsBelow e.text result.1 (max cursor anchor) := by
  intro result
  have order : min cursor anchor ≤ max cursor anchor := by omega
  have inside : max cursor anchor ≤ e.text.length :=
    Nat.max_le.mpr ⟨stands.cursor_le, stands.anchor_le⟩
  obtain ⟨above, line, rest, startColumn, middle, last, below, column, division, range, startWithin,
    within, start_eq, stop_eq⟩ := exists_range order inside
  have wholeRange : e.text.lines = above ++ middle ++ last :: below := by
    rw [division, range, List.append_assoc]
  have clean : ∀ l ∈ below, '\n' ∉ l := by
    intro l member
    refine Text.not_mem_of_mem_lines (?_ : l ∈ e.text.lines)
    rw [wholeRange]
    exact List.mem_append_right _ (List.mem_cons_of_mem last member)
  have pieces : e.document.text = block above ++ (block middle ++ last) ++ Text.trail below := by
    have whole : e.document.text = _ := Text.eq_block_append_unlines wholeRange
    rw [whole, Text.unlines_cons_eq_trail, Text.block_append]
    simp only [List.append_assoc]
  have bounds : Text.lineBounds e.text (min cursor anchor : Nat) (max cursor anchor : Nat) =
      (((block above).length : Int), ((block above ++ (block middle ++ last)).length : Int)) := by
    rw [start_eq, stop_eq, Text.lineBounds_of_lines division startWithin wholeRange within,
      Text.block_append, List.append_assoc]
  -- The lines of the result, divided where those of the document are.
  have visited := visited_indentRegion division startWithin start_eq order (some (cursor : Int))
    e.indentWidth
  have number : e.text.lineNumber (max cursor anchor) = above.length + (middle.length + 1) := by
    rw [stop_eq, Text.lineNumber_of_lines wholeRange within, List.length_append, Nat.add_assoc]
  have belowText : e.text.lines.drop (e.text.lineNumber (max cursor anchor)) = below := by
    rw [number, ← Nat.add_assoc, ← List.length_append, wholeRange, List.drop_length_add_append]
    rfl
  have size : e.text.lines.length = above.length + (middle.length + 1) + below.length := by
    rw [wholeRange, List.length_append, List.length_append, List.length_cons]
    omega
  obtain ⟨after, lines⟩ : ∃ after, result.1.lines = above ++ after := ⟨_, visited.after⟩
  have afterSize : after.length = middle.length + 1 + below.length := by
    have same : result.1.lines.length = e.text.lines.length := visited.lineCount
    rw [lines, size, List.length_append] at same
    omega
  have divided : result.1.lines = above ++ after.take (middle.length + 1) ++
      after.drop (middle.length + 1) := by
    rw [List.append_assoc, List.take_append_drop, lines]
  have taken := text_replaceLines_eq_iff pieces clean divided
    (List.ne_nil_of_length_pos (by rw [List.length_take]; omega))
    (by rw [List.length_drop]; omega) (shown_indentRegion e.document.shown_text _ _ _ _)
  rw [KeepsBelow, belowText, number, lines, List.drop_length_add_append, ← taken,
    document_reindentSelection stands selected bounds]
  constructor
  · intro reindented
    rw [← Document.text_placeFrom]
    exact reindented.shows.text_eq
  · intro same
    rw [Document.placeFrom_eq same]
    refine ⟨Document.shows_place same _, ?_⟩
    show SameButIndentation e.text (replaceLines _ _ _ result.1).1.text
    rw [same]
    exact sameButIndentation_indentRegion order inside _ _

/-- **Re-indenting the selection gives the document the re-indented text exactly if no line below the
selection was re-indented.** That is so whenever the end of the selection is not overtaken. -/
theorem reindentSelection_iff (stands : e.document.StandsAt cursor anchor)
    (selected : cursor ≠ anchor) :
    let result := indentRegion e.text (min cursor anchor : Nat) (max cursor anchor : Nat)
      (some (cursor : Int)) e.indentWidth
    (e.document.Reindented e.reindentSelection.document result ↔
        KeepsBelow e.text result.1 (max cursor anchor)) ∧
      (¬ Overtakes e.text result.1 (max cursor anchor) →
        e.document.Reindented e.reindentSelection.document result) := by
  intro result
  have exactly := reindented_iff_keepsBelow stands selected
  refine ⟨exactly, fun held => exactly.mpr (keepsBelow_of_not_overtakes (by omega) ?_ held)⟩
  exact Nat.max_le.mpr ⟨stands.cursor_le, stands.anchor_le⟩

/-- A selection from the middle of a line up to the blanks of the next one, which become fewer. -/
theorem reindentSelection_in_blanks :
    let e : Editor :=
      { Editor.new .dark 2 with
        document := { held := "(😀\n    b\n    c".toList, position := 6, anchor := 1 } }
    e.document.StandsAt 5 1 ∧ 5 ≠ 1 ∧
      ¬ Overtakes e.text (indentRegion e.text (min 5 1 : Nat) (max 5 1 : Nat) (some (5 : Nat))
        e.indentWidth).1 (max 5 1) ∧
      e.reindentSelection.text = "(😀\n  b\n    c".toList := by
  intro e
  have stands : e.document.StandsAt 5 1 := ⟨by decide, by decide, by decide, by decide⟩
  have result : (indentRegion e.text (min 5 1 : Nat) (max 5 1 : Nat) (some (5 : Nat))
      e.indentWidth).1 = "(😀\n  b\n    c".toList := by
    have division : Text.lines e.text =
        [] ++ "(😀".toList :: ["    b".toList, "    c".toList] := by decide
    have place : Text.clamp e.text.length (min (min 5 1 : Nat) (max 5 1 : Nat)) =
        (block []).length + 1 := by decide
    exact (indentRegion_lines division place (by decide) _ _).1.trans (by decide)
  have held : ¬ Overtakes e.text (indentRegion e.text (min 5 1 : Nat) (max 5 1 : Nat)
      (some (5 : Nat)) e.indentWidth).1 (max 5 1) := by
    rw [result, Overtakes, Snapshot.ofText_eq_snapshot]
    decide
  have reindented := (reindentSelection_iff stands (by decide)).2 held
  exact ⟨stands, by decide, held, reindented.shows.text_eq.trans result⟩

/-- The end of the selection lies in eight blanks that all go. The line below is then re-indented as
well, and what the document takes over ends in the wrong place. -/
theorem not_reindented_shrunk :
    let e : Editor :=
      { Editor.new .dark 2 with
        document := { held := "        a\n  b".toList, position := 5, anchor := 0 } }
    e.document.StandsAt 5 0 ∧ 5 ≠ 0 ∧
      ¬ e.document.Reindented e.reindentSelection.document
        (indentRegion e.text (min 5 0 : Nat) (max 5 0 : Nat) (some (5 : Nat)) e.indentWidth) := by
  intro e
  have stands : e.document.StandsAt 5 0 := ⟨by decide, by decide, by decide, by decide⟩
  have result : (indentRegion e.text (min 5 0 : Nat) (max 5 0 : Nat) (some (5 : Nat))
      e.indentWidth).1 = "a\nb".toList := by
    have division : Text.lines e.text = [] ++ "        a".toList :: ["  b".toList] := by decide
    have place : Text.clamp e.text.length (min (min 5 0 : Nat) (max 5 0 : Nat)) =
        (block []).length + 0 := by decide
    exact (indentRegion_lines division place (by decide) _ _).1.trans (by decide)
  refine ⟨stands, by decide, fun reindented => ?_⟩
  have kept := (reindented_iff_keepsBelow stands (by decide)).mp reindented
  rw [KeepsBelow, result] at kept
  exact absurd kept (by decide)

end Editor

end LispEditor
