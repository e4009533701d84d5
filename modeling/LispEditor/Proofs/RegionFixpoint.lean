import LispEditor.Proofs.RegionLines

/-!
# Re-indenting a whole buffer

A pass over the whole text visits every line but an empty last one, and a line that it leaves behind
stands where the lines above it say. Since advice looks only up, the lines that change later do not
make it wrong again: `Settled` holds of the result, and a second pass has nothing to do.

* `settled_linesAfter`: what a pass over all lines leaves is settled.
* `linesAfter_of_settled`: a pass over settled lines leaves them.
* `indentRegion_fixpoint`: both for texts.
-/

namespace LispEditor

open Text (unlines block)

/-- Lines below the text `a` that stand where the lines above them say, but for an empty last one. -/
def Settled (width : Int) : Text → List Text → Prop
  | _, [] => True
  | a, line :: below =>
      reindentedLine width a line = line ∧
        (unlines below = [] ∨ Settled width (a ++ line ++ ['\n']) below)

section Whole

variable {width : Int} {a line : Text}

/-- Of a region that goes to the end of the text, the text behind the line is left. -/
theorem leftBehind_whole {below : List Text} (more : below ≠ []) (new : Text) :
    leftBehind line new (unlines (line :: below)).length = (unlines below).length := by
  have blanks : (line.takeWhile isIndentation).length ≤ line.length :=
    (List.takeWhile_sublist isIndentation).length_le
  have size : (unlines (line :: below)).length = line.length + 1 + (unlines below).length := by
    rw [Text.unlines_cons more, List.length_append, List.length_cons]
    omega
  rw [leftBehind, size, if_pos (by omega)]
  omega

/-- A pass to the end of the text goes on, unless nothing or an empty line is left. -/
theorem linesAfter_whole (below : List Text) :
    linesAfter width a (unlines (line :: below)).length (line :: below) =
      reindentedLine width a line ::
        if unlines below = [] then below
        else linesAfter width (a ++ reindentedLine width a line ++ ['\n']) (unlines below).length
          below := by
  cases below with
  | nil =>
      rw [linesAfter, visitLines_single]
      rfl
  | cons next others =>
      have left : leftBehind line (reindentedLine width a line)
          (unlines (line :: next :: others)).length = (unlines (next :: others)).length :=
        leftBehind_whole (List.cons_ne_nil next others) _
      split
      · next empty =>
          rw [linesAfter_last]
          rw [left, empty]
          exact Int.lt_irrefl 0
      · next more =>
          rw [linesAfter_next, left]
          rw [left]
          exact Int.natCast_pos.mpr (List.length_pos_iff.mpr more)

end Whole

/-- **A pass to the end of the text leaves settled lines.** -/
theorem settled_linesAfter (width : Int) (a : Text) (lines : List Text) :
    Settled width a (linesAfter width a (unlines lines).length lines) := by
  induction lines generalizing a with
  | nil => exact trivial
  | cons line below ih =>
      rw [linesAfter_whole]
      refine ⟨reindentedLine_idem width a line, ?_⟩
      split
      · next empty => exact Or.inl empty
      · exact Or.inr (ih _)

/-- **A pass to the end of settled lines leaves them.** -/
theorem linesAfter_of_settled {width : Int} {a : Text} {lines : List Text}
    (settled : Settled width a lines) : linesAfter width a (unlines lines).length lines = lines := by
  induction lines generalizing a with
  | nil => rfl
  | cons line below ih =>
      obtain ⟨stands, others⟩ := settled
      rw [linesAfter_whole, stands]
      split
      · rfl
      · next more => rw [ih (others.resolve_left more)]

/-- Every settled line stands where the text above it says. -/
theorem reindentedLine_of_settled {width : Int} {a : Text} {above below : List Text} {line : Text}
    (settled : Settled width a (above ++ line :: below))
    (reached : above = [] ∨ unlines (line :: below) ≠ []) :
    reindentedLine width (a ++ block above) line = line := by
  induction above generalizing a with
  | nil =>
      rw [Text.block_nil, List.append_nil]
      exact settled.1
  | cons first others ih =>
      have more : unlines (line :: below) ≠ [] := reached.resolve_left (List.cons_ne_nil first others)
      rw [List.cons_append] at settled
      have rest : Settled width (a ++ first ++ ['\n']) (others ++ line :: below) := by
        refine settled.2.resolve_left fun empty => more ?_
        rw [Text.unlines_append others (List.cons_ne_nil line below)] at empty
        exact (List.append_eq_nil_iff.mp empty).2
      have stands := ih rest (Or.inr more)
      rwa [List.append_assoc, List.append_assoc, List.singleton_append, ← Text.block_cons] at stands

/-! ### Texts -/

/-- What becomes of a text when one of its lines is re-indented. -/
theorem indentLine_apply_line {a : Text} (ends : Text.EndsLine a) (line : Text) (below : List Text)
    (width : Int) :
    (indentLine (a ++ unlines (line :: below)) a.length none width).apply
        (a ++ unlines (line :: below)) =
      a ++ unlines (reindentedLine width a line :: below) := by
  have known := RegionPass.faithful_start a (unlines (line :: below)) a.length 0
  exact (known.text_visit ends width).symm.trans (known.visit_line ends width).text_eq

/-- Re-indenting a whole text is a pass to the end of its lines. -/
theorem indentRegion_whole (text : Text) (cursor : Option Int) (width : Int) :
    (indentRegion text 0 text.length cursor width).1 =
      unlines (linesAfter width [] (unlines text.lines).length text.lines) := by
  obtain ⟨line, below, split⟩ := List.exists_cons_of_ne_nil (Text.lines_ne_nil text)
  have place : Text.clamp text.length (min 0 (text.length : Int)) = (block []).length + 0 := by
    rw [Int.min_eq_left (Int.natCast_nonneg _)]
    exact Nat.zero_min _
  have divided : text.lines = [] ++ line :: below := split
  rw [(indentRegion_lines divided place (Nat.zero_le _) cursor width).1,
    Int.max_eq_right (Int.natCast_nonneg _), Text.unlines_lines, divided]
  simp

/-- **Re-indenting a whole text once is enough**: every line that the result has, but for an empty
last one, is where re-indenting it alone would put it, and re-indenting the result changes
nothing. -/
theorem indentRegion_fixpoint (text : Text) (cursor : Option Int) (width : Int) :
    let result := (indentRegion text 0 text.length cursor width).1
    (∀ start ∈ result.lineStarts, start = 0 ∨ start < result.length →
      (indentLine result start none width).apply result = result) ∧
      ∀ cursor' : Option Int, (indentRegion result 0 result.length cursor' width).1 = result := by
  rw [indentRegion_whole]
  have settled := settled_linesAfter width [] text.lines
  have lines : (unlines (linesAfter width [] (unlines text.lines).length text.lines)).lines =
      linesAfter width [] (unlines text.lines).length text.lines := by
    refine Text.lines_unlines ?_ (newline_not_mem_linesAfter fun l => Text.not_mem_of_mem_lines)
    rw [← List.length_pos_iff, length_linesAfter, List.length_pos_iff]
    exact Text.lines_ne_nil text
  generalize linesAfter width [] (unlines text.lines).length text.lines = after at settled lines ⊢
  refine ⟨fun start member reached => ?_, fun cursor' => ?_⟩
  · obtain ⟨above, line, below, split, rfl⟩ := Text.exists_line_of_mem_lineStarts member
    rw [lines] at split
    subst split
    rw [Text.unlines_append above (List.cons_ne_nil line below)] at reached ⊢
    have stands : reindentedLine width ([] ++ block above) line = line := by
      refine reindentedLine_of_settled settled ?_
      rcases reached with first | inside
      · exact Or.inl (Text.block_eq_nil.mp (List.length_eq_zero_iff.mp first))
      · refine Or.inr fun empty => ?_
        rw [empty, List.append_nil] at inside
        exact Nat.lt_irrefl _ inside
    rw [List.nil_append] at stands
    rw [indentLine_apply_line (Text.endsLine_block above), stands]
  · rw [indentRegion_whole, lines, linesAfter_of_settled settled]

/-- The column of the last line was found when the line above it had just moved. -/
theorem indentRegion_fixpoint_nested :
    (indentRegion "[a\n   (b\nc".toList 0 10 none 2).1 = "[a\n (b\n   c".toList ∧
      7 ∈ Text.lineStarts "[a\n (b\n   c".toList ∧
      (indentLine "[a\n (b\n   c".toList 7 none 2).apply "[a\n (b\n   c".toList =
        "[a\n (b\n   c".toList := by
  have result : (indentRegion "[a\n   (b\nc".toList 0 10 none 2).1 = "[a\n (b\n   c".toList :=
    (indentRegion_whole "[a\n   (b\nc".toList none 2).trans (by decide)
  have fixpoint : _ ∧ _ := indentRegion_fixpoint "[a\n   (b\nc".toList none 2
  have stays := fixpoint.1
  rw [show ("[a\n   (b\nc".toList.length : Int) = 10 from rfl, result] at stays
  exact ⟨result, by decide, stays 7 (by decide) (Or.inr (by decide))⟩

end LispEditor
