import LispEditor.Indent.Bounded
import LispEditor.Proofs.RegionLines

/-!
# How far to the right a region pass goes

A line that a pass visits stands at most one indent width to the right of something above it. So the
columns of a pass are bounded by the size of the text and the number of its lines, and as long as the
bound is an index no edit of the pass fails.

* `textWidth_reindentedLine_le`: how wide a visit makes a line.
* `RegionPass.Faithful.runWithin_eq_ok`: a pass with enough room is not given up.
* `newlineAndIndent_of_within`: what a limit does to a line break, if anything, is to prevent it.
* `indentRegionWithin_eq_ok`: a region with enough room is re-indented as without a limit.
-/

namespace LispEditor

open Text (unlines block)

/-! ### Widths -/

theorem nextColumn_bounds (column : Nat) (c : Char) :
    column ≤ nextColumn column c ∧ nextColumn column c ≤ column + tabWidth := by
  unfold nextColumn tabWidth
  split <;> omega

theorem foldl_nextColumn_bounds (column : Nat) (text : Text) :
    column ≤ text.foldl nextColumn column ∧
      text.foldl nextColumn column ≤ column + tabWidth * text.length := by
  induction text generalizing column with
  | nil => exact ⟨Nat.le_refl _, Nat.le_refl _⟩
  | cons c rest ih =>
      obtain ⟨least, most⟩ := nextColumn_bounds column c
      obtain ⟨least', most'⟩ := ih (nextColumn column c)
      rw [List.foldl_cons, List.length_cons, Nat.mul_add_one]
      omega

theorem textWidth_le (text : Text) : textWidth text ≤ tabWidth * text.length := by
  have bounds := foldl_nextColumn_bounds 0 text
  rw [textWidth]
  omega

theorem textWidth_append_le (front back : Text) :
    textWidth (front ++ back) ≤ textWidth front + tabWidth * back.length := by
  rw [textWidth, List.foldl_append]
  exact (foldl_nextColumn_bounds _ back).2

/-- A part of a line is no wider than the line. -/
theorem textWidth_take_le (line : Text) (column : Nat) :
    textWidth (line.take column) ≤ textWidth line := by
  conv => rhs; rw [← List.take_append_drop column line, textWidth, List.foldl_append]
  exact (foldl_nextColumn_bounds _ _).1

/-! ### Columns above a line -/

/-- No line is wider than `bound`. -/
def Narrow (bound : Nat) (lines : List Text) : Prop :=
  ∀ line ∈ lines, textWidth line ≤ bound

section Above

variable {bound : Nat} {above : List Text}

/-- No column is greater than the lines are wide. -/
theorem Narrow.columnAt_le (narrow : Narrow bound above) (single : ∀ line ∈ above, '\n' ∉ line)
    (offset : Int) : (Snapshot.ofText (block above)).columnAt offset ≤ bound := by
  have size : (Snapshot.ofText (block above)).clamp offset ≤ (block above).length :=
    Text.clamp_le _ offset |>.trans (Nat.le_of_eq (Snapshot.size_scan (block above) false))
  obtain ⟨front, line, back, column, division, place, within⟩ := Text.exists_line_of_offset size
  have whole : Text.lines (block above) = above ++ [[]] := by
    have lines := Text.lines_block_append single []
    rwa [List.append_nil] at lines
  have width : textWidth line ≤ bound := by
    have member : line ∈ above ++ [[]] := by
      rw [← whole, division]
      exact List.mem_append_right front List.mem_cons_self
    rcases List.mem_append.mp member with inside | last
    · exact narrow line inside
    · rw [List.mem_singleton.mp last]
      exact Nat.zero_le bound
  have divided : (Snapshot.ofText (block above)).text =
      block front ++ line.take column ++ unlines (line.drop column :: back) := by
    rw [Snapshot.text_ofText]
    exact Text.eq_block_append_column division column
  have here := Snapshot.columnAt_append divided (Text.endsLine_block front)
    (Text.newline_not_mem_take division column)
  rw [Text.length_block_append_take within, ← place] at here
  have same : (Snapshot.ofText (block above)).columnAt offset =
      (Snapshot.ofText (block above)).columnAt
        ((Snapshot.ofText (block above)).clamp offset : Nat) := by
    rw [Snapshot.columnAt, Snapshot.columnAt]
    simp only [Snapshot.clamp_of_le (size.trans (Nat.le_of_eq
      (congrArg List.length (Snapshot.text_ofText (block above)).symm)))]
  rw [same, here]
  exact (textWidth_take_le line column).trans width

/-- **No line is advised to stand further away from the lines above it than an indent width.** -/
theorem Narrow.target_bounds (narrow : Narrow bound above) (single : ∀ line ∈ above, '\n' ∉ line)
    (width : Int) :
    -(width.natAbs : Int) ≤ (adviceAbove (block above) width).target ∧
      (adviceAbove (block above) width).target ≤ bound + width.natAbs := by
  have columns := narrow.columnAt_le single
  rw [Snapshot.ofText_eq_snapshot] at columns
  unfold adviceAbove
  dsimp only
  split
  · simp only [Advice.target, Advice.column?, Option.getD_none]
    omega
  next opener _ =>
    split
    · have column := columns ((Mode.code.snapshot (block above)).indentationEnd opener)
      simp only [Advice.target, Advice.column?, Option.getD_some, Snapshot.bodyColumn,
        Snapshot.indentationColumn]
      omega
    · have column := columns ((Mode.code.snapshot (block above)).skipBlanks (opener + 1))
      simp only [Advice.target, Advice.column?, Option.getD_some]
      omega

/-- How wide a visit makes a line. -/
theorem textWidth_reindentedLine_le (narrow : Narrow bound above)
    (single : ∀ line ∈ above, '\n' ∉ line) (width : Int) (line : Text) :
    textWidth (reindentedLine width (block above) line) ≤
      bound + width.natAbs + tabWidth * line.length := by
  have whole := textWidth_le line
  have old : line.takeWhile isIndentation ++ line.dropWhile isIndentation = line :=
    List.takeWhile_append_dropWhile
  unfold reindentedLine lineIndent freshBlanks
  split
  · rw [old]
    omega
  · split
    · rw [old]
      omega
    · have body : (line.dropWhile isIndentation).length ≤ line.length :=
        (List.dropWhile_sublist isIndentation).length_le
      have target := (narrow.target_bounds single width).2
      have spaced := textWidth_append_le (spaces (adviceAbove (block above) width).target)
        (line.dropWhile isIndentation)
      have blanks : textWidth (spaces (adviceAbove (block above) width).target) =
          (adviceAbove (block above) width).target.toNat := by
        rw [textWidth, spaces, foldl_nextColumn_spaces, Nat.zero_add]
      have scaled := Nat.mul_le_mul_left tabWidth body
      omega

theorem Narrow.append_line (narrow : Narrow bound above) (single : ∀ line ∈ above, '\n' ∉ line)
    (width : Int) (line : Text) :
    Narrow (bound + width.natAbs + tabWidth * line.length)
      (above ++ [reindentedLine width (block above) line]) := by
  intro other member
  rcases List.mem_append.mp member with old | new
  · have := narrow other old
    omega
  · rw [List.mem_singleton.mp new]
    exact textWidth_reindentedLine_le narrow single width line

end Above

theorem narrow_block (above : List Text) : Narrow (tabWidth * (block above).length) above := by
  intro line member
  have part : line.length ≤ (block above).length := by
    obtain ⟨front, back, rfl⟩ := List.append_of_mem member
    rw [Text.block_append, Text.block_cons]
    simp only [List.length_append]
    omega
  exact (textWidth_le line).trans (Nat.mul_le_mul_left tabWidth part)

/-! ### Passes with enough room -/

theorem Snapshot.exceeds_iff {limit start : Nat} {s : Snapshot} {advice : Advice} :
    s.exceeds limit start advice = true ↔
      s.inString start = false ∧ (s.columnAt (s.indentationEnd start) : Int) ≠ advice.target ∧
        (advice.target < -(limit + 1 : Int) ∨ (limit : Int) < advice.target) := by
  have beyond : fitsIndex limit advice.target = false ↔
      advice.target < -(limit + 1 : Int) ∨ (limit : Int) < advice.target := by
    rw [fitsIndex, decide_eq_false_iff_not]
    omega
  rw [Snapshot.exceeds, Bool.and_eq_true, Bool.and_eq_true, Bool.not_eq_true', bne_iff_ne,
    Bool.not_eq_true', beyond, and_assoc]

namespace RegionPass

variable {limit start next : Nat} {width : Int} {pass : RegionPass}

theorem runWithin_stuck (stuck : pass.exceeds limit start width = true) (further : Nat) :
    pass.runWithin limit width further start = .error .beyondIndices := by
  cases further <;> simp [runWithin, stuck]

theorem runWithin_last (fits : pass.exceeds limit start width = false)
    (last : (pass.visit start width).nextLine? start = none) (further : Nat) :
    pass.runWithin limit width further start = .ok (pass.visit start width) := by
  cases further <;> simp [runWithin, fits, last]

theorem runWithin_next (fits : pass.exceeds limit start width = false)
    (leads : (pass.visit start width).nextLine? start = some next) (further : Nat) :
    pass.runWithin limit width (further + 1) start =
      (pass.visit start width).runWithin limit width further next := by
  conv => lhs; unfold runWithin
  simp [fits, leads]

/-- A pass that is not given up does what it does without a limit. -/
theorem run_eq_of_runWithin {further : Nat} {done : RegionPass}
    (through : pass.runWithin limit width further start = .ok done) :
    pass.run width further start = done := by
  induction further generalizing pass start with
  | zero =>
      cases fits : pass.exceeds limit start width with
      | true => exact nomatch (runWithin_stuck fits 0).symm.trans through
      | false =>
          simp only [runWithin, fits, Bool.false_eq_true, if_false, Except.ok.injEq] at through
          exact through
  | succ further ih =>
      cases fits : pass.exceeds limit start width with
      | true => exact nomatch (runWithin_stuck fits _).symm.trans through
      | false =>
          cases leads : (pass.visit start width).nextLine? start with
          | none =>
              rw [runWithin_last fits leads] at through
              rw [run_last leads]
              exact Except.ok.inj through
          | some next =>
              rw [runWithin_next fits leads] at through
              rw [run_next leads]
              exact ih through

/-- The advice of the groups that a pass carries is found anew. -/
theorem Faithful.adviceAt_eq {a rest : Text} (faithful : pass.Faithful a rest)
    (outside : pass.snapshot.inString a.length = false) (width : Int) :
    pass.adviceAt a.length width = pass.snapshot.advise a.length width := by
  have asked : pass.groupsAt a.length = pass.groups.advance pass.snapshot a.length := by
    rw [RegionPass.groupsAt, if_neg (by rw [outside]; exact Bool.false_ne_true)]
  have opener := faithful.tracks.innermost?_advance faithful.reached_le faithful.length_le_size
  rw [adviceAt, asked, opener, Snapshot.advise]

/-- A line below narrow lines can be brought to its column. -/
theorem Faithful.exceeds_eq_false {above : List Text} {rest : Text} {bound : Nat}
    (faithful : pass.Faithful (block above) rest) (narrow : Narrow bound above)
    (single : ∀ line ∈ above, '\n' ∉ line) (room : bound + width.natAbs ≤ limit) :
    pass.exceeds limit (block above).length width = false := by
  rw [← Bool.not_eq_true, RegionPass.exceeds, Snapshot.exceeds_iff]
  rintro ⟨outside, -, beyond⟩
  have ends := Text.endsLine_block above
  have inCode := Mode.after_eq_code ends (faithful.inString_eq ▸ outside)
  obtain ⟨least, most⟩ := narrow.target_bounds single width
  rw [faithful.adviceAt_eq outside, faithful.snapshot_eq,
    Snapshot.advise_eq_adviceAbove ends inCode] at beyond
  omega

/-- **A pass with enough room is not given up.** Each visit takes from the room what it may add to the
width of its line. -/
theorem Faithful.runWithin_eq_ok {above below : List Text} {line : Text} {bound : Nat}
    (faithful : pass.Faithful (block above) (unlines (line :: below)))
    (narrow : Narrow bound above) (single : ∀ l ∈ above ++ line :: below, '\n' ∉ l)
    (room : bound + (below.length + 1) * width.natAbs +
      tabWidth * (unlines (line :: below)).length ≤ limit)
    {further : Nat} (enough : below.length ≤ further) :
    pass.runWithin limit width further (block above).length =
      .ok (pass.run width further (block above).length) := by
  induction below generalizing pass above line bound further with
  | nil =>
      obtain ⟨singleAbove, singleBelow⟩ := List.forall_mem_append.mp single
      rw [List.length_nil, Nat.zero_add, Nat.one_mul] at room
      have fits : pass.exceeds limit (block above).length width = false :=
        faithful.exceeds_eq_false narrow singleAbove (by omega)
      have leads := faithful.nextLine?_visit (Text.endsLine_block above)
        (singleBelow line List.mem_cons_self) width
      rw [if_neg fun both => both.1 rfl] at leads
      rw [runWithin_last fits leads, run_last leads]
  | cons second others ih =>
      obtain ⟨singleAbove, singleBelow⟩ := List.forall_mem_append.mp single
      have clean : '\n' ∉ line := singleBelow line List.mem_cons_self
      have size : (unlines (line :: second :: others)).length =
          line.length + ((unlines (second :: others)).length + 1) := by
        rw [Text.unlines_cons (List.cons_ne_nil second others), List.length_append, List.length_cons]
      rw [size, List.length_cons] at room
      simp only [Nat.add_one_mul, Nat.mul_add] at room
      have fits : pass.exceeds limit (block above).length width = false :=
        faithful.exceeds_eq_false narrow singleAbove (by omega)
      have leads := faithful.nextLine?_visit (Text.endsLine_block above) clean width
      by_cases more : 0 < leftBehind line (reindentedLine width (block above) line)
          (pass.stop - (block above).length)
      · rw [if_pos ⟨List.cons_ne_nil second others, more⟩, ← Text.block_concat] at leads
        obtain ⟨further, rfl⟩ := Nat.exists_eq_add_of_le' (Nat.le_trans (Nat.le_add_left 1 _) enough)
        have known := faithful.next_line (Text.endsLine_block above) width
        rw [← Text.block_concat] at known
        have wider := narrow.append_line singleAbove width line
        have singles : ∀ l ∈ above ++ [reindentedLine width (block above) line] ++ second :: others,
            '\n' ∉ l := by
          intro l member
          rw [List.append_assoc, List.mem_append, List.singleton_append, List.mem_cons] at member
          rcases member with old | rfl | below
          · exact singleAbove l old
          · exact newline_not_mem_reindentedLine clean width _
          · exact singleBelow l (List.mem_cons_of_mem line below)
        have less : bound + width.natAbs + tabWidth * line.length +
            (others.length + 1) * width.natAbs + tabWidth * (unlines (second :: others)).length ≤
              limit := by
          simp only [Nat.add_one_mul]
          omega
        rw [runWithin_next fits leads, run_next leads]
        exact ih known wider singles less (Nat.le_of_succ_le_succ enough)
      · rw [if_neg fun both => more both.2] at leads
        rw [runWithin_last fits leads, run_last leads]

end RegionPass

/-! ### Lines -/

/-- A line that can be brought to its column is re-indented as if there were no limit. -/
theorem indentLine_of_within {limit : Nat} {text : Text} {offset width : Int} {cursor : Option Int}
    {edit : IndentEdit} (within : indentLineWithin limit text offset cursor width = .ok edit) :
    indentLine text offset cursor width = edit := by
  simp only [indentLineWithin] at within
  split at within
  · cases within
  · exact Except.ok.inj within

/-- A line break that is not given up is the one that is made if there is no limit. -/
theorem newlineAndIndent_of_within {limit : Nat} {text : Text} {cursor width : Int}
    {result : Text × Int} (within : newlineAndIndentWithin limit text cursor width = .ok result) :
    newlineAndIndent text cursor width = result := by
  simp only [newlineAndIndentWithin] at within
  cases edit : indentLineWithin limit _ _ none width with
  | error cause =>
      rw [edit] at within
      cases within
  | ok made =>
      rw [edit] at within
      rw [newlineAndIndent, ← Except.ok.inj within]
      simp only [indentLine_of_within edit]

/-! ### Regions with enough room -/

/-- **Where the bound on its columns is an index, a region is re-indented as if there were no
limit.** -/
theorem indentRegionWithin_eq_ok {limit : Nat} {text : Text} {width : Int}
    (room : tabWidth * text.length + text.lines.length * width.natAbs ≤ limit) (start stop : Int)
    (cursor : Option Int) :
    indentRegionWithin limit text start stop cursor width =
      .ok (indentRegion text start stop cursor width) := by
  obtain ⟨above, line, below, column, division, place, within⟩ :=
    Text.exists_line_of_offset (Text.clamp_le text.length (min start stop))
  have divided := Text.eq_block_append_column division column
  have single := Text.newline_not_mem_take division column
  rw [← Text.length_block_append_take within] at place
  have starts := Snapshot.lineStart_ofText divided (Text.endsLine_block above) single place
  have known := RegionPass.faithful_start (block above) (unlines (line :: below)) (cursor.getD start)
    (max start stop)
  have whole := Text.eq_block_append_unlines division
  have lines := Text.count_newline text
  have singles : ∀ l ∈ above ++ line :: below, '\n' ∉ l :=
    fun l member => Text.not_mem_of_mem_lines (division ▸ member)
  have more : above.length * width.natAbs + (below.length + 1) * width.natAbs =
      text.lines.length * width.natAbs := by
    rw [division, List.length_append, List.length_cons, ← Nat.add_mul]
  have enough : below.length ≤ text.count '\n' := by
    rw [division, List.length_append, List.length_cons] at lines
    omega
  have sizes := congrArg (fun t => tabWidth * List.length t) whole
  simp only [List.length_append, Nat.mul_add] at sizes
  rw [← whole] at known
  have fits : tabWidth * (block above).length + (below.length + 1) * width.natAbs +
      tabWidth * (unlines (line :: below)).length ≤ limit := by
    omega
  have done := known.runWithin_eq_ok (narrow_block above) singles fits enough
  simp only [indentRegionWithin, indentRegion, starts, done]
  rfl

end LispEditor
