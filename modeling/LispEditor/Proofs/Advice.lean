import LispEditor.Indent.Advice
import LispEditor.Proofs.Motion

/-!
# Advice looks only up

The advice for a line that begins in code is found by motions that may run past the start of the
line. Still it depends on nothing but the text above: `adviceAbove` asks for the innermost group
left open there and for the first cell behind its opener that is no blank.

* `firstElement?_of_forward?`: the first element of a group begins behind the blanks that follow its
  opener.
* `exists_forward?`: an element that begins above a line outside strings, in the group around the
  line, has an end.
* `advise_eq_adviceAbove`: the advice is that of the text above, whatever follows.
-/

namespace LispEditor

namespace Snapshot

/-! ### The first element of a group -/

/-- Behind a character that is no part of a string no string is open. -/
theorem inString_concat {text : Text} {front after : List Cell} {last : Cell}
    (division : (ofText text).cells = front ++ last :: after) (other : last.kind ≠ .string) :
    (ofText text).inString (front ++ [last]).length = false := by
  have split : text = front.map Cell.char ++ [last.char] ++ after.map Cell.char := by
    have chars := congrArg (List.map Cell.char) division
    have whole : (ofText text).cells.map Cell.char = text := text_ofText text
    rw [whole] at chars
    simpa using chars
  have kind : last.kind = (Mode.code.after (front.map Cell.char)).kindOf last.char := by
    have cells : (ofText text).cells = Mode.code.cells (front.map Cell.char) ++
        ⟨last.char, (Mode.code.after (front.map Cell.char)).kindOf last.char⟩ ::
          (Mode.code.after (front.map Cell.char ++ [last.char])).cells (after.map Cell.char) := by
      conv => lhs; rw [ofText_eq_snapshot, split]
      show Mode.code.cells _ = _
      rw [Mode.cells_append, Mode.cells_append, List.append_assoc]
      rfl
    have sizes : front.length = (Mode.code.cells (front.map Cell.char)).length := by
      rw [Mode.length_cells, List.length_map]
    rw [division] at cells
    have tails := (List.append_inj cells sizes).2
    exact congrArg Cell.kind (List.cons.inj tails).1
  have outside : ((Mode.code.after (front.map Cell.char)).next last.char).inString = false := by
    rw [Bool.eq_false_iff]
    intro inside
    rw [kind, Ne, Mode.kindOf_eq_string] at other
    exact other (Or.inr inside)
  have behind := inString_ofText (front.map Cell.char ++ [last.char]) (after.map Cell.char)
  rw [← split, Mode.after_append, List.length_append, List.length_map] at behind
  rw [List.length_append]
  exact behind.trans outside

/-- Where cells that are no part of a string end, no string is open, if none was open before them. -/
theorem inString_append {text : Text} {before passed after : List Cell}
    (division : (ofText text).cells = before ++ passed ++ after)
    (other : ∀ cell ∈ passed, cell.kind ≠ .string)
    (outside : passed = [] → (ofText text).inString before.length = false) :
    (ofText text).inString (before ++ passed).length = false := by
  rcases List.eq_nil_or_concat passed with rfl | ⟨inner, last, rfl⟩
  · rw [List.append_nil]
    exact outside rfl
  · rw [List.concat_eq_append] at division other ⊢
    have ends : (ofText text).cells = before ++ inner ++ last :: after := by simp [division]
    rw [← List.append_assoc]
    exact inString_concat ends (other last (by simp))

/-- The blanks and marks that a motion passes over are no parts of strings. -/
theorem Approach.kind_of_mem {s : Snapshot} {before blanks marks body : List Cell}
    (approach : s.Approach before blanks marks body) {cell : Cell} (member : cell ∈ blanks ++ marks) :
    cell.kind ≠ .string := by
  rcases List.mem_append.mp member with blank | mark
  · intro string
    have := approach.blank cell blank
    rw [Cell.isBlank_of_kind string] at this
    cases this
  · exact Cell.kind_of_isAtom (Cell.isAtom_of_isMark (approach.mark cell mark))

theorem intoGroup?_of_opens {s : Snapshot} {before behind : List Cell} {opener : Cell}
    (division : s.cells = before ++ opener :: behind) (opens : opener.opens = true) :
    s.intoGroup? before.length = some (before ++ [opener]).length := by
  have size : s.size - behind.length = (before ++ [opener]).length := by
    rw [size, division]
    simp only [List.length_append, List.length_cons, List.length_nil]
    omega
  have stays : (opener :: behind).dropWhile (fun cell => !cell.opens && !cell.closes) =
      opener :: behind :=
    List.dropWhile_cons_of_neg (by simp [opens])
  rw [intoGroup?, clamp_cells division, cellsFrom, division, List.drop_left, stays]
  simp only [opens, if_true, size]

section FirstElement

variable {text : Text} {before blanks marks body : List Cell} {opener : Cell}

/-- Behind an opener and the blanks and marks that follow it no string is open. -/
theorem Approach.inString_of_opens
    (approach : (ofText text).Approach (before ++ [opener]) blanks marks body)
    (opens : opener.opens = true) :
    (ofText text).inString (before ++ [opener] ++ blanks ++ marks).length = false := by
  have division : (ofText text).cells = before ++ opener :: (blanks ++ marks) ++ body := by
    simp [approach.cells_eq]
  have regroup : before ++ [opener] ++ blanks ++ marks = before ++ opener :: (blanks ++ marks) := by
    simp
  rw [regroup]
  refine inString_append division ?_ fun empty => nomatch empty
  intro cell member
  rcases List.mem_cons.mp member with rfl | member
  · rw [Cell.kind_of_isCode (Cell.isCode_of_opens opens)]
    exact nofun
  · exact approach.kind_of_mem member

/-- No atom stands before the marks of the first element of a group. -/
theorem Approach.apart_of_opens
    (approach : (ofText text).Approach (before ++ [opener]) blanks marks body)
    (opens : opener.opens = true) :
    ∀ cell ∈ (before ++ [opener] ++ blanks).getLast?, cell.isAtom = false := by
  intro cell last
  have member : cell ∈ opener :: blanks := by
    rw [List.append_assoc, List.getLast?_append, List.singleton_append,
      List.getLast?_eq_some_getLast (List.cons_ne_nil opener blanks), Option.some_or] at last
    exact Option.some.inj last ▸ List.getLast_mem (List.cons_ne_nil opener blanks)
  rcases List.mem_cons.mp member with rfl | blank
  · exact Cell.isAtom_of_opens opens
  · rw [Bool.eq_false_iff]
    intro atom
    have := approach.blank cell blank
    rw [Cell.isBlank_of_isAtom atom] at this
    cases this

/-- The first element of a group begins behind the blanks that follow its opener. -/
theorem firstElement?_of_forward?
    (approach : (ofText text).Approach (before ++ [opener]) blanks marks body)
    (opens : opener.opens = true) {stop : Int}
    (found : (ofText text).forward? (before ++ [opener]).length = some stop) (limit : Int) :
    (ofText text).firstElement? before.length limit =
      (some ((before ++ [opener] ++ blanks).length : Int)).filter
        fun start => decide (start < limit) := by
  have division : (ofText text).cells = before ++ opener :: (blanks ++ marks ++ body) := by
    simp [approach.cells_eq]
  have start := approach.backward?_forward? (approach.apart_of_opens opens)
    (approach.inString_of_opens opens) found
  rw [firstElement?, intoGroup?_of_opens division opens, Option.bind_some, found, Option.bind_some,
    start]

end FirstElement

/-! ### Elements of the group around a line -/

theorem cells_ofText_append {a : Text} (inCode : Mode.code.after a = .code) (b : Text) :
    (ofText (a ++ b)).cells = Mode.code.cells a ++ Mode.code.cells b := by
  rw [ofText_eq_snapshot]
  show Mode.code.cells (a ++ b) = _
  rw [Mode.cells_append, inCode]

theorem enclosing?_ofText (a b : Text) :
    (ofText (a ++ b)).enclosing? a.length =
      (OpenGroups.stepCells [] 0 (Mode.code.cells a)).head? := by
  have here : (ofText (a ++ b)).clamp (a.length : Int) = a.length := clamp_scan_append a b false
  have above : (ofText (a ++ b)).cells.take a.length = Mode.code.cells a := by
    rw [take_cells_ofText (Nat.le_refl _), List.take_of_length_le]
    rw [Mode.length_cells]
  rw [enclosing?, here, cellsBefore, above, OpenGroups.enclosingOpener_reverse,
    List.head?_eq_getElem?]

/-- The innermost group has an opener. -/
theorem exists_opener {cells : List Cell} {place : Nat}
    (innermost : (OpenGroups.stepCells [] 0 cells).head? = some place) :
    ∃ before opener inner, cells = before ++ opener :: inner ∧ opener.opens = true ∧
      before.length = place := by
  rcases OpenGroups.exists_of_mem_stepCells (List.mem_of_mem_head? innermost) with
    none | ⟨before, opener, inner, rfl, opens, rfl⟩
  · cases none
  · exact ⟨before, opener, inner, rfl, opens, (Nat.zero_add _).symm⟩

/-- The last cell above a line is no mark. -/
theorem exists_not_isMark {a : Text} (ends : Text.EndsLine a) (nonempty : a ≠ []) :
    ∃ cells newline, Mode.code.cells a = cells ++ [newline] ∧ newline.isMark = false := by
  rcases ends.cases with rfl | ⟨init, rfl⟩
  · exact absurd rfl nonempty
  · refine ⟨_, _, Mode.cells_append _ _ _, ?_⟩
    simp [Cell.isMark, isMark]

/-- An element that begins above a line has its first cell behind the marks above that line, too. -/
theorem Approach.exists_cell {a b : Text} (ends : Text.EndsLine a)
    (inCode : Mode.code.after a = .code) {before blanks marks body : List Cell}
    (approach : (ofText (a ++ b)).Approach before blanks marks body)
    (above : (before ++ blanks).length < a.length) :
    ∃ cell inner, Mode.code.cells a = before ++ blanks ++ marks ++ cell :: inner ∧
      body = cell :: inner ++ Mode.code.cells b := by
  obtain ⟨cells, newline, last, notMark⟩ := exists_not_isMark ends fun empty => by
    rw [empty] at above
    exact absurd above (Nat.not_lt_zero _)
  have division := approach.cells_eq
  rw [cells_ofText_append inCode, List.append_assoc (before ++ blanks)] at division
  obtain ⟨element, split, rest⟩ : ∃ element, Mode.code.cells a = before ++ blanks ++ element ∧
      marks ++ body = element ++ Mode.code.cells b := by
    rcases List.append_eq_append_iff.mp division with ⟨spare, longer, -⟩ | shorter
    · have sizes := congrArg List.length longer
      simp only [List.length_append, Mode.length_cells] at sizes above
      omega
    · exact shorter
  have member : newline ∈ element := by
    have nonempty : element ≠ [] := by
      rintro rfl
      have sizes := congrArg List.length split
      rw [Mode.length_cells, List.append_nil] at sizes
      omega
    rw [last, ← List.dropLast_concat_getLast nonempty, ← List.append_assoc] at split
    rw [List.append_singleton_inj.mp split |>.2]
    exact List.getLast_mem nonempty
  have notMarks : newline ∉ marks := fun inMarks => by
    simp [approach.mark newline inMarks] at notMark
  rcases List.append_eq_append_iff.mp rest with ⟨inner, pieces, tail⟩ | ⟨spare, longer, -⟩
  · cases inner with
    | nil =>
        rw [List.append_nil] at pieces
        exact absurd (pieces ▸ member) notMarks
    | cons cell inner =>
        refine ⟨cell, inner, ?_, tail⟩
        rw [split, pieces, ← List.append_assoc]
  · rw [longer] at notMarks
    exact absurd (List.mem_append_left spare member) notMarks

/-- An element that begins above a line outside strings, in the group around that line, has an
end. -/
theorem exists_forward? {a b : Text} (ends : Text.EndsLine a) (inCode : Mode.code.after a = .code)
    {before blanks marks body : List Cell} {opener : Cell}
    (approach : (ofText (a ++ b)).Approach (before ++ [opener]) blanks marks body)
    (opens : opener.opens = true)
    (group : (ofText (a ++ b)).enclosing? a.length = some before.length)
    (above : (before ++ [opener] ++ blanks).length < a.length) :
    ∃ stop, (ofText (a ++ b)).forward? (before ++ [opener]).length = some stop := by
  obtain ⟨cell, inner, cells, rfl⟩ := approach.exists_cell ends inCode above
  rw [enclosing?_ofText, cells] at group
  -- The group around the line is still open behind it.
  have notCloser : cell.closes = false := by
    rw [List.append_assoc (before ++ [opener])] at group
    exact OpenGroups.closes_of_innermost opens approach.balanced group
  rcases cell.role_cases with blank | string | opening | closing | atom
  · have marked : marks ≠ [] := by
      rintro rfl
      have := approach.noBlank cell rfl
      rw [blank] at this
      cases this
    refine ⟨_, (approach.forward?_marks fun first head => ?_).trans (if_neg marked)⟩
    obtain rfl : cell = first := Option.some.inj head
    refine ⟨fun string => ?_, Cell.opens_of_isBlank blank, Bool.eq_false_iff.mpr fun atom => ?_⟩
    · simp [Cell.isBlank_of_kind string] at blank
    · simp [Cell.isBlank_of_isAtom atom] at blank
  · have here : ((ofText (a ++ b)).cells[(before ++ [opener] ++ blanks ++ marks).length]?).map
        Cell.kind = some .string := by
      rw [approach.cells_eq, List.getElem?_append_right (Nat.le_refl _), Nat.sub_self]
      exact congrArg some string
    have before_lt : (before ++ [opener] ++ blanks ++ marks).length < a.length := by
      have sizes := congrArg List.length cells
      rw [Mode.length_cells, List.length_append, List.length_cons] at sizes
      omega
    have outside : ((Mode.start false).after a).inString = false :=
      congrArg Mode.inString inCode
    obtain ⟨span, lookup⟩ := exists_stringSpan? here
    obtain ⟨member, low, -⟩ := stringSpan?_ofText.mp lookup
    have closed := (closed_of_start_lt outside member (by omega)).2
    refine ⟨span.stop, (approach.forward?_string string).trans ?_⟩
    rw [lookup, Option.filter_some, ofText, closed]
    rfl
  · have deeper : before.length < (before ++ [opener] ++ blanks ++ marks).length := by
      simp only [List.length_append, List.length_singleton]
      omega
    have closed := OpenGroups.enclosingCloser_ne_none opening group deeper
    obtain ⟨left, found⟩ := Option.ne_none_iff_exists'.mp
      (OpenGroups.enclosingCloser_append_ne_none closed (Mode.code.cells b))
    exact ⟨_, (approach.forward?_opens opening).trans (congrArg (Option.map _) found)⟩
  · exact absurd closing (by simp [notCloser])
  · obtain ⟨others, after, split, atoms, ends⟩ := exists_atom atom (inner ++ Mode.code.cells b)
    rw [List.cons_append, split] at approach
    have pieces : cell :: (others ++ after) = (cell :: others) ++ after := rfl
    rw [pieces] at approach
    exact ⟨_, approach.forward?_atom (List.cons_ne_nil _ _) atoms ends⟩

/-! ### Columns -/

theorem charAt?_of_cells {s : Snapshot} {before behind : List Cell} {cell : Cell}
    (division : s.cells = before ++ cell :: behind) :
    s.charAt? before.length = some cell.char := by
  rw [charAt?, cellAt?, if_pos (Int.natCast_nonneg _), division, Int.toNat_natCast,
    List.getElem?_append_right (Nat.le_refl _), Nat.sub_self]
  rfl

/-- The column of an offset depends on the text before it. -/
theorem columnAt_ofText_append {a : Text} {offset : Nat} (inside : offset ≤ a.length) (b : Text) :
    (ofText (a ++ b)).columnAt offset = (ofText a).columnAt offset := by
  obtain ⟨above, line, rest, rfl, rfl, ends, single⟩ := Text.exists_line_at inside
  have longer : (ofText (above ++ line ++ rest ++ b)).text = above ++ line ++ (rest ++ b) := by
    rw [text_ofText, List.append_assoc (above ++ line)]
  rw [columnAt_append longer ends single, columnAt_append (text_ofText _) ends single]

/-- Blanks are taken up to a character that is none, whatever follows it. -/
theorem takeWhile_append_cons {line : Text} {c : Char} (other : isIndentation c = false)
    (rest rest' : Text) :
    (line ++ c :: rest).takeWhile isIndentation = (line ++ c :: rest').takeWhile isIndentation := by
  induction line with
  | nil => simp [other]
  | cons d line ih =>
      rw [List.cons_append, List.cons_append, List.takeWhile_cons, List.takeWhile_cons, ih]

/-- The indentation of the line of a character that is no blank depends on the text up to there. -/
theorem bodyColumn_ofText_append {a : Text} {offset : Nat} {c : Char} (here : a[offset]? = some c)
    (other : isIndentation c = false) (b : Text) (width : Int) :
    (ofText (a ++ b)).bodyColumn offset width = (ofText a).bodyColumn offset width := by
  obtain ⟨above, line, rest, rfl, rfl, ends, single⟩ :=
    Text.exists_line_at (Nat.le_of_lt (List.getElem?_eq_some_iff.mp here).1)
  rw [List.getElem?_append_right (Nat.le_refl _), Nat.sub_self] at here
  obtain ⟨behind, rfl⟩ : ∃ behind, rest = c :: behind := by
    cases rest with
    | nil => cases here
    | cons d behind => exact ⟨behind, by rw [Option.some.inj here]⟩
  have longer : (ofText (above ++ line ++ c :: behind ++ b)).text =
      above ++ line ++ c :: (behind ++ b) := by
    rw [text_ofText, List.append_assoc (above ++ line)]
    rfl
  have blanks : (line ++ c :: (behind ++ b)).takeWhile isIndentation =
      (line ++ c :: behind).takeWhile isIndentation := takeWhile_append_cons other _ _
  have inside : above.length + ((line ++ c :: behind).takeWhile isIndentation).length ≤
      (above ++ line ++ c :: behind).length := by
    rw [List.append_assoc, List.length_append]
    exact Nat.add_le_add_left (List.takeWhile_sublist isIndentation).length_le _
  rw [bodyColumn, bodyColumn, indentationColumn, indentationColumn,
    indentationEnd_append longer ends single, indentationEnd_append (text_ofText _) ends single,
    blanks, columnAt_ofText_append inside]

/-- The offset of the first cell at `offset` or behind it that is no blank. -/
def skipBlanks (s : Snapshot) (offset : Nat) : Nat :=
  offset + ((s.cellsFrom offset).takeWhile Cell.isBlank).length

/-- Behind the opener of the group around a line, the first element that begins above the line is
the first cell above it that is no blank. -/
theorem firstElement?_above {a : Text} (ends : Text.EndsLine a) (inCode : Mode.code.after a = .code)
    {before inner : List Cell} {opener : Cell} (cells : Mode.code.cells a = before ++ opener :: inner)
    (opens : opener.opens = true) (b : Text)
    (group : (ofText (a ++ b)).enclosing? a.length = some before.length) :
    (ofText (a ++ b)).firstElement? before.length a.length =
      if (inner.takeWhile Cell.isBlank).length = inner.length then none
      else some ((before ++ [opener] ++ inner.takeWhile Cell.isBlank).length : Int) := by
  have size : a.length = (before ++ [opener]).length + inner.length := by
    rw [← Mode.length_cells .code a, cells, List.append_cons, List.length_append]
  have whole : (ofText (a ++ b)).cells = before ++ [opener] ++ (inner ++ Mode.code.cells b) := by
    rw [cells_ofText_append inCode, cells]
    simp
  obtain ⟨blanks, marks, body, behind, approach⟩ := exists_approach whole
  have taken : (inner ++ Mode.code.cells b).takeWhile Cell.isBlank = blanks := by
    rw [behind, List.append_assoc]
    exact takeWhile_append_eq approach.blank approach.noBlank
  rw [List.takeWhile_append] at taken
  split
  · next full =>
      rw [if_pos full] at taken
      have below : ¬ (((before ++ [opener] ++ blanks).length : Int) < a.length) := by
        rw [← taken, size, ← List.append_assoc]
        simp only [List.length_append]
        omega
      cases found : (ofText (a ++ b)).forward? (before ++ [opener]).length with
      | none =>
          have division : (ofText (a ++ b)).cells =
              before ++ opener :: (inner ++ Mode.code.cells b) := by simp [whole]
          rw [firstElement?, intoGroup?_of_opens division opens, Option.bind_some, found]
          rfl
      | some stop =>
          rw [firstElement?_of_forward? approach opens found, Option.filter_some,
            decide_eq_false below]
          rfl
  · next partly =>
      rw [if_neg partly] at taken
      subst taken
      have fewer : (inner.takeWhile Cell.isBlank).length ≤ inner.length :=
        (List.takeWhile_sublist Cell.isBlank).length_le
      have above : (before ++ [opener] ++ inner.takeWhile Cell.isBlank).length < a.length := by
        rw [size, List.length_append]
        omega
      obtain ⟨stop, found⟩ := exists_forward? ends inCode approach opens group above
      rw [firstElement?_of_forward? approach opens found, Option.filter_some,
        decide_eq_true (Int.ofNat_lt.mpr above)]
      rfl

/-- Inside a round bracket the column is that of a body. -/
theorem adviseInside_round {s : Snapshot} {opener : Int} (round : s.charAt? opener = some '(')
    (lineStart width : Int) :
    s.adviseInside (some opener) lineStart width = .column (s.bodyColumn opener width) := by
  simp only [adviseInside, round]

/-- Inside another bracket the column is that of the first element, if there is one above. -/
theorem adviseInside_aligned {s : Snapshot} {opener : Int}
    (aligned : s.charAt? opener = some '[' ∨ s.charAt? opener = some '{') (lineStart width : Int) :
    s.adviseInside (some opener) lineStart width =
      (s.firstElement? opener lineStart).elim (.column (s.bodyColumn opener width))
        fun start => .column (s.columnAt start) := by
  rcases aligned with square | curly
  · simp only [adviseInside, square]
    cases s.firstElement? opener lineStart <;> rfl
  · simp only [adviseInside, curly]
    cases s.firstElement? opener lineStart <;> rfl

theorem char_of_opens {opener : Cell} (opens : opener.opens = true) :
    opener.char = '(' ∨ opener.char = '[' ∨ opener.char = '{' := by
  simpa [Cell.opens, isOpener] using (Bool.and_eq_true_iff.mp opens).2

theorem isIndentation_of_opens {opener : Cell} (opens : opener.opens = true) :
    isIndentation opener.char = false := by
  rcases char_of_opens opens with round | square | curly
  · simp [round, isIndentation]
  · simp [square, isIndentation]
  · simp [curly, isIndentation]

end Snapshot

/-! ### The advice of the text above -/

/-- The advice for a line below the text `a`, which may be followed by anything. -/
def adviceAbove (a : Text) (width : Int) : Advice :=
  let s := Mode.code.snapshot a
  match s.enclosing? a.length with
  | none => .topLevel
  | some opener =>
      let start := s.skipBlanks (opener + 1)
      if s.charAt? opener = some '(' ∨ start = a.length then
        .column (s.bodyColumn opener width)
      else .column (s.columnAt start)

/-- **The advice for a line that begins in code is that of the text above it.** -/
theorem Snapshot.advise_eq_adviceAbove {a : Text} (ends : Text.EndsLine a)
    (inCode : Mode.code.after a = .code) (b : Text) (width : Int) :
    (ofText (a ++ b)).advise a.length width = adviceAbove a width := by
  have alone := enclosing?_ofText a []
  rw [List.append_nil] at alone
  rw [advise, adviceAbove, ← ofText_eq_snapshot, enclosing?_ofText, alone]
  cases innermost : (OpenGroups.stepCells [] 0 (Mode.code.cells a)).head? with
  | none => rfl
  | some place =>
      obtain ⟨before, opener, inner, cells, opens, rfl⟩ := exists_opener innermost
      have group := (enclosing?_ofText a b).trans innermost
      have whole : (ofText (a ++ b)).cells = before ++ opener :: (inner ++ Mode.code.cells b) := by
        simp [cells_ofText_append inCode, cells]
      have above : (ofText a).cells = before ++ opener :: inner := by
        rw [ofText_eq_snapshot]
        exact cells
      have here : a[before.length]? = some opener.char := by
        have chars := congrArg (List.map Cell.char) cells
        rw [Mode.map_char_cells] at chars
        rw [chars, List.map_append, List.getElem?_append_right (by simp)]
        simp
      have skipped : (ofText a).skipBlanks (before.length + 1) =
          (before ++ [opener] ++ inner.takeWhile Cell.isBlank).length := by
        have behind : (ofText a).cellsFrom (before.length + 1) = inner := by
          rw [cellsFrom, above, List.drop_length_add_append]
          rfl
        rw [skipBlanks, behind, List.length_append, List.length_append]
        rfl
      have body := bodyColumn_ofText_append here (isIndentation_of_opens opens) b width
      simp only [Option.map_some, Int.ofNat_eq_natCast, charAt?_of_cells above, Option.some.injEq]
      rcases char_of_opens opens with round | shaped
      · rw [adviseInside_round ((charAt?_of_cells whole).trans (congrArg some round)), body,
          if_pos (Or.inl round)]
      · have notRound : opener.char ≠ '(' := by
          rintro round
          simp [round] at shaped
        have aligned : (ofText (a ++ b)).charAt? before.length = some '[' ∨
            (ofText (a ++ b)).charAt? before.length = some '{' := by
          simpa only [charAt?_of_cells whole, Option.some.injEq] using shaped
        rw [adviseInside_aligned aligned, firstElement?_above ends inCode cells opens b group, body,
          skipped]
        have size : a.length = (before ++ [opener]).length + inner.length := by
          rw [← Mode.length_cells .code a, cells, List.append_cons, List.length_append]
        have fewer := (List.takeWhile_sublist Cell.isBlank (l := inner)).length_le
        by_cases full : (inner.takeWhile Cell.isBlank).length = inner.length
        · rw [if_pos full, if_pos (Or.inr (by rw [List.length_append, full, size]))]
          rfl
        · have short : (before ++ [opener] ++ inner.takeWhile Cell.isBlank).length < a.length := by
            rw [List.length_append, size]
            omega
          have neither : ¬ (opener.char = '(' ∨
              (before ++ [opener] ++ inner.takeWhile Cell.isBlank).length = a.length) := by
            rintro (round | same)
            · exact notRound round
            · omega
          rw [if_neg full, if_neg neither, Option.elim_some,
            columnAt_ofText_append (Nat.le_of_lt short)]

end LispEditor
