import LispEditor.Proofs.BlankEdits
import LispEditor.Proofs.EditorIndent
import LispEditor.Proofs.MotionInverse

/-!
# Breaking a line

A line break looks at two scans. That of the old text tells which blanks before the cursor are code and
so are dropped; that of the new text tells whether the new line begins inside a string and at which
column it should stand. `Break` divides a text where both agree on what stands before the new line.

* `newlineAndIndent_of_inside`: inside a string nothing but the newline goes in.
* `newlineAndIndent_of_outside`: elsewhere blanks on both sides give way to the newline and to the
  indentation of the new line.
* `Break.solid_eq`: a break in code leaves all cells but code blanks and newlines.
* `newlineAndIndent_breaks`: all of it, for every text and cursor.
-/

namespace LispEditor

/-- A space or a tab that is code. -/
def Cell.isSpacing (cell : Cell) : Bool :=
  cell.isCode && isIndentation cell.char

namespace Mode

/-- Every division of the cells of a text comes from one of the text. -/
theorem exists_of_cells_eq_append {mode : Mode} {text : Text} {first second : List Cell}
    (division : mode.cells text = first ++ second) :
    ∃ a b, text = a ++ b ∧ mode.cells a = first ∧ (mode.after a).cells b = second := by
  have size := congrArg List.length division
  rw [length_cells, List.length_append] at size
  have pieces : mode.cells (text.take first.length ++ text.drop first.length) = first ++ second := by
    rw [List.take_append_drop, division]
  rw [cells_append] at pieces
  have shorter : (mode.cells (text.take first.length)).length = first.length := by
    rw [length_cells, List.length_take_of_le (by omega)]
  obtain ⟨front, back⟩ := List.append_inj pieces shorter
  exact ⟨_, _, (List.take_append_drop first.length text).symm, front, back⟩

/-- A space or a tab is code only if it is read in code. -/
theorem eq_code_of_kindOf {mode : Mode} {c : Char} (blank : isIndentation c = true)
    (isCode : mode.kindOf c = .code) : mode = .code := by
  cases mode with
  | code => rfl
  | comment => simp [kindOf, ne_newline_of_isIndentation blank] at isCode
  | string => cases isCode
  | escape => cases isCode
  | literal => cases isCode

end Mode

/-! ### Where a line is broken -/

/-- A text that is divided at a place, with the code blanks before the place apart. -/
structure Break (text front blanks behind : Text) : Prop where
  text_eq : text = front ++ blanks ++ behind
  spacing : ∀ cell ∈ (Mode.code.after front).cells blanks, cell.isSpacing = true
  apart : ∀ cell ∈ (Mode.code.cells front).getLast?, cell.isSpacing = false

theorem exists_break {text : Text} {place : Nat} (inside : place ≤ text.length) :
    ∃ front blanks behind, Break text front blanks behind ∧ place = (front ++ blanks).length := by
  obtain ⟨first, second, division, spacing, apart⟩ :=
    exists_longest_suffix Cell.isSpacing (Mode.code.cells (text.take place))
  obtain ⟨front, blanks, pieces, rfl, rfl⟩ := Mode.exists_of_cells_eq_append division
  refine ⟨front, blanks, text.drop place, ⟨?_, spacing, apart⟩, ?_⟩
  · rw [← pieces, List.take_append_drop]
  · rw [← pieces, List.length_take_of_le inside]

namespace Break

variable {text front blanks behind : Text}

theorem blank (broken : Break text front blanks behind) : ∀ c ∈ blanks, isIndentation c = true := by
  intro c member
  rw [← Mode.map_char_cells (Mode.code.after front) blanks] at member
  obtain ⟨cell, inCells, rfl⟩ := List.mem_map.mp member
  exact (Bool.and_eq_true_iff.mp (broken.spacing cell inCells)).2

/-- If blanks are dropped, then the text before them ends in code. -/
theorem eq_nil_or_inCode (broken : Break text front blanks behind) :
    blanks = [] ∨ Mode.code.after front = .code := by
  have spacing := broken.spacing
  cases blanks with
  | nil => exact Or.inl rfl
  | cons c rest =>
      obtain ⟨isCode, blank⟩ := Bool.and_eq_true_iff.mp (spacing _ List.mem_cons_self)
      exact Or.inr (Mode.eq_code_of_kindOf blank (Cell.kind_of_isCode isCode))

/-- So they do not matter to the scan of what follows. -/
theorem after_eq (broken : Break text front blanks behind) :
    Mode.code.after (front ++ blanks) = Mode.code.after front := by
  rcases broken.eq_nil_or_inCode with rfl | inCode
  · rw [List.append_nil]
  · rw [Mode.after_append, inCode]
    exact Mode.after_separators fun c member => isSeparator_of_isIndentation (broken.blank c member)

theorem inString_eq (broken : Break text front blanks behind) :
    (Snapshot.ofText text).inString (front ++ blanks).length = (Mode.code.after front).inString := by
  rw [broken.text_eq, Snapshot.inString_ofText, broken.after_eq]

/-- The new line begins inside a string if the place of the break lies inside one. -/
theorem inString_newline (broken : Break text front blanks behind) (rest : Text) :
    (Snapshot.ofText (front ++ ['\n'] ++ rest)).inString (front ++ ['\n']).length =
      (Snapshot.ofText text).inString (front ++ blanks).length := by
  rw [Snapshot.inString_ofText, Mode.after_append, broken.inString_eq]
  exact Mode.inString_next_newline _

theorem inCode_newline (broken : Break text front blanks behind)
    (outside : (Snapshot.ofText text).inString (front ++ blanks).length = false) :
    Mode.code.after (front ++ ['\n']) = .code := by
  rw [← broken.inString_newline [], Snapshot.inString_ofText] at outside
  exact Mode.after_eq_code (Text.endsLine_append_newline front) outside

/-- Exactly the code blanks before the place are dropped. -/
theorem droppedBlanks_eq (broken : Break text front blanks behind) :
    droppedBlanks ((Snapshot.ofText text).cellsBefore (front ++ blanks).length) = blanks.length := by
  have before : (Snapshot.ofText text).cellsBefore (front ++ blanks).length =
      ((Mode.code.after front).cells blanks).reverse ++ (Mode.code.cells front).reverse := by
    rw [Snapshot.cellsBefore, broken.text_eq, Snapshot.take_cells_ofText (Nat.le_refl _),
      ← Mode.length_cells .code, List.take_length, Mode.cells_append, List.reverse_append]
  have passed := takeWhile_append_eq (p := Cell.isSpacing)
    (fun cell member => broken.spacing cell (List.mem_reverse.mp member))
    (fun cell head => broken.apart cell (by rwa [List.head?_reverse] at head))
  rw [droppedBlanks, before]
  refine (congrArg List.length passed).trans ?_
  rw [List.length_reverse, Mode.length_cells]

/-- **A break is the edit of the line that begins behind the newline.** -/
theorem newlineAndIndent_eq (broken : Break text front blanks behind) {cursor : Int}
    (place : Text.clamp text.length cursor = (front ++ blanks).length) (width : Int) :
    newlineAndIndent text cursor width =
      let s := Snapshot.ofText (front ++ ['\n'] ++ behind)
      let edit := s.indentEdit (front ++ ['\n']).length (s.advise (front ++ ['\n']).length width)
        (front ++ ['\n']).length
      (edit.apply (front ++ ['\n'] ++ behind), edit.cursor) := by
  have cut : (front ++ blanks).length - blanks.length = front.length := by
    rw [List.length_append, Nat.add_sub_cancel]
  have taken : text.take front.length = front := by
    rw [broken.text_eq, List.append_assoc, List.take_left]
  have dropped : text.drop (front ++ blanks).length = behind := by
    rw [broken.text_eq, List.drop_left]
  have new : front ++ '\n' :: behind = front ++ ['\n'] ++ behind := by simp
  have line : (front.length : Int) + 1 = (front ++ ['\n']).length := by simp
  simp only [newlineAndIndent, place, broken.droppedBlanks_eq, cut, taken, dropped, new, line]
  rw [← indentLine_of_endsLine (Text.endsLine_append_newline front) behind]
  rfl

/-- Inside a string only the newline goes in. -/
theorem newlineAndIndent_of_inside (broken : Break text front blanks behind) {cursor : Int}
    (place : Text.clamp text.length cursor = (front ++ blanks).length) (width : Int)
    (inside : (Snapshot.ofText text).inString (front ++ blanks).length = true) :
    blanks = [] ∧
      newlineAndIndent text cursor width = (front ++ '\n' :: behind, (front.length : Int) + 1) := by
  refine ⟨?_, ?_⟩
  · rcases broken.eq_nil_or_inCode with none | inCode
    · exact none
    · rw [broken.inString_eq, inCode] at inside
      cases inside
  · rw [← broken.inString_newline behind] at inside
    rw [broken.newlineAndIndent_eq place]
    simp only [Snapshot.indentEdit_of_inside (Snapshot.text_ofText _)
      (Text.endsLine_append_newline front) inside]
    simp [IndentEdit.apply]

/-- Outside strings the blanks on both sides give way to the newline and the new indentation, and the
cursor goes behind it. -/
theorem newlineAndIndent_of_outside (broken : Break text front blanks behind) {cursor : Int}
    (place : Text.clamp text.length cursor = (front ++ blanks).length) (width : Int)
    (outside : (Snapshot.ofText text).inString (front ++ blanks).length = false) :
    let indent := freshBlanks (adviceAbove (front ++ ['\n']) width).target
      (behind.takeWhile isIndentation)
    newlineAndIndent text cursor width =
      (front ++ '\n' :: indent ++ behind.dropWhile isIndentation,
        (front.length : Int) + 1 + indent.length) := by
  intro indent
  have ends := Text.endsLine_append_newline front
  have division := Snapshot.text_ofText (front ++ ['\n'] ++ behind)
  have inCode := broken.inCode_newline outside
  rw [← broken.inString_newline behind] at outside
  have here : ((front ++ ['\n']).length : Int) ≤
      ((front ++ ['\n'] ++ behind.takeWhile isIndentation).length : Nat) :=
    Int.ofNat_le.mpr (List.sublist_append_left _ _).length_le
  rw [broken.newlineAndIndent_eq place]
  simp only [Snapshot.indentEdit_apply division ends]
  rw [Snapshot.indentEdit_of_outside division ends outside,
    Snapshot.advise_eq_adviceAbove ends inCode]
  simp only [moveCursor, if_pos (And.intro (Int.le_refl _) here), Prod.mk.injEq]
  refine ⟨by simp [indent], ?_⟩
  simp only [List.length_append, List.length_singleton, Int.natCast_add, Int.natCast_one, indent]

end Break

/-- Blanks that a line has got are as wide as they should be, if that is possible. -/
theorem textWidth_freshBlanks {target : Int} (nonneg : 0 ≤ target) (blanks : Text) :
    (textWidth (freshBlanks target blanks) : Int) = target := by
  unfold freshBlanks
  split
  · assumption
  · exact textWidth_spaces nonneg

/-! ### What a break leaves -/

/-- The cells that are no spaces, tabs or newlines of code. -/
def Snapshot.solid (s : Snapshot) : List Cell :=
  s.cells.filter fun cell => !(cell.isCode && (isIndentation cell.char || cell.char == '\n'))

theorem isSeparator_of_blank {blank : Text}
    (blanks : ∀ c ∈ blank, isIndentation c = true ∨ c = '\n') : ∀ c ∈ blank, isSeparator c = true := by
  intro c member
  rcases blanks c member with indentation | rfl
  · exact isSeparator_of_isIndentation indentation
  · rfl

/-- Spaces, tabs and newlines in code are not kept. -/
theorem filter_cells_blank {blank : Text}
    (blanks : ∀ c ∈ blank, isIndentation c = true ∨ c = '\n') :
    (Mode.code.cells blank).filter (fun cell =>
      !(cell.isCode && (isIndentation cell.char || cell.char == '\n'))) = [] := by
  rw [Mode.cells_separators (isSeparator_of_blank blanks), List.filter_eq_nil_iff]
  intro cell member
  obtain ⟨c, inBlank, rfl⟩ := List.mem_map.mp member
  rcases blanks c inBlank with indentation | rfl
  · simp [Cell.isCode, indentation]
  · simp [Cell.isCode]

/-- Spaces, tabs and newlines in code may come and go. -/
theorem solid_blank {a blank : Text} (inCode : Mode.code.after a = .code)
    (blanks : ∀ c ∈ blank, isIndentation c = true ∨ c = '\n') (b : Text) :
    (Snapshot.ofText (a ++ blank ++ b)).solid = (Snapshot.ofText (a ++ b)).solid := by
  have stays : Mode.code.after blank = .code := Mode.after_separators (isSeparator_of_blank blanks)
  simp only [Snapshot.solid, Snapshot.ofText_eq_snapshot, Mode.snapshot, Mode.cells_append,
    Mode.after_append, inCode, stays, List.filter_append, filter_cells_blank blanks,
    List.append_nil]

/-- **A break in code leaves all cells but code blanks and newlines.** -/
theorem Break.solid_eq {text front blanks behind : Text} (broken : Break text front blanks behind)
    (inCode : Mode.code.after front = .code) {indent : Text}
    (indentation : ∀ c ∈ indent, isIndentation c = true) :
    (Snapshot.ofText (front ++ '\n' :: indent ++ behind.dropWhile isIndentation)).solid =
      (Snapshot.ofText text).solid := by
  have pieces : text = front ++ (blanks ++ behind.takeWhile isIndentation) ++
      behind.dropWhile isIndentation := by
    rw [List.append_assoc, List.append_assoc, List.takeWhile_append_dropWhile, broken.text_eq,
      List.append_assoc]
  have old : ∀ c ∈ blanks ++ behind.takeWhile isIndentation, isIndentation c = true ∨ c = '\n' := by
    intro c member
    rcases List.mem_append.mp member with dropped | below
    · exact Or.inl (broken.blank c dropped)
    · exact Or.inl (List.mem_takeWhile_imp below)
  have new : ∀ c ∈ '\n' :: indent, isIndentation c = true ∨ c = '\n' := by
    intro c member
    rcases List.mem_cons.mp member with rfl | later
    · exact Or.inr rfl
    · exact Or.inl (indentation c later)
  rw [pieces, solid_blank inCode old, solid_blank inCode new]

/-! ### The break of a line -/

/-- `cut` is where the longest stretch of spaces and tabs of code that ends at `place` begins. -/
structure Snapshot.SpacingFrom (s : Snapshot) (cut place : Nat) : Prop where
  le : cut ≤ place
  spacing : ∀ i, cut ≤ i → i < place → ∃ cell ∈ s.cells[i]?, cell.isSpacing = true
  apart : ∀ i, i + 1 = cut → ∀ cell ∈ s.cells[i]?, cell.isSpacing = false

theorem Break.spacingFrom {text front blanks behind : Text} (broken : Break text front blanks behind) :
    (Snapshot.ofText text).SpacingFrom front.length (front ++ blanks).length := by
  have division : (Snapshot.ofText text).cells = Mode.code.cells front ++
      (Mode.code.after front).cells blanks ++ (Mode.code.after (front ++ blanks)).cells behind := by
    rw [Snapshot.ofText_eq_snapshot, broken.text_eq, Mode.snapshot, Mode.cells_append,
      Mode.cells_append]
  have size : front.length = (Mode.code.cells front).length := (Mode.length_cells _ _).symm
  refine ⟨(List.sublist_append_left _ _).length_le, ?_, ?_⟩
  · intro i low high
    rw [size] at low
    rw [List.length_append, size, ← Mode.length_cells (Mode.code.after front) blanks,
      ← List.length_append] at high
    obtain ⟨cell, here, member⟩ := Snapshot.exists_mem_of_between division low high
    exact ⟨cell, here, broken.spacing cell member⟩
  · intro i last cell here
    refine broken.apart cell ?_
    rw [division, List.append_assoc, List.getElem?_append_left (by omega)] at here
    rw [List.getLast?_eq_getElem?, ← size, ← last]
    exact here

/-- The blanks of the new line are as wide as the text above it advises. -/
theorem Break.textWidth_indent {text front blanks behind : Text}
    (broken : Break text front blanks behind)
    (outside : (Snapshot.ofText text).inString (front ++ blanks).length = false) {width : Int}
    (nonneg : 0 ≤ width) (old : Text) :
    (textWidth (freshBlanks (adviceAbove (front ++ ['\n']) width).target old) : Int) =
      ((Snapshot.ofText (front ++ ['\n'])).advise (front.length + 1) width).column?.getD 0 := by
  have advice := Snapshot.advise_eq_adviceAbove (Text.endsLine_append_newline front)
    (broken.inCode_newline outside) [] width
  rw [List.append_nil, List.length_append] at advice
  have target : 0 ≤ (adviceAbove (front ++ ['\n']) width).target := by
    rw [← advice]
    exact Snapshot.target_adviseInside_nonneg _ _ _ nonneg
  rw [textWidth_freshBlanks target, ← advice]
  rfl

/-- **A line break**: for every text, cursor and width that is not negative. Inside a string it only
puts the newline in. Elsewhere the code blanks before the cursor and the blanks behind it give way to
the newline and to blanks as wide as the text above the new line advises. If the cursor stands in code,
no other character is lost or read in another way. -/
theorem newlineAndIndent_breaks (text : Text) (cursor : Int) {width : Int} (nonneg : 0 ≤ width) :
    let place := Text.clamp text.length cursor
    let result := newlineAndIndent text cursor width
    ((Snapshot.ofText text).inString place = true →
      result = (text.take place ++ '\n' :: text.drop place, (place : Int) + 1)) ∧
    ((Snapshot.ofText text).inString place = false →
      ∃ cut indent, (Snapshot.ofText text).SpacingFrom cut place ∧
        (∀ c ∈ indent, isIndentation c = true) ∧
        (textWidth indent : Int) =
          ((Snapshot.ofText (text.take cut ++ ['\n'])).advise (cut + 1) width).column?.getD 0 ∧
        result = (text.take cut ++ '\n' :: indent ++ (text.drop place).dropWhile isIndentation,
          (cut : Int) + 1 + indent.length)) ∧
    (EndsInCode (text.take place) →
      (Snapshot.ofText result.1).solid = (Snapshot.ofText text).solid) := by
  intro place result
  obtain ⟨front, blanks, behind, broken, here⟩ := exists_break (Text.clamp_le text.length cursor)
  have upTo : text.take place = front ++ blanks := by
    rw [show place = _ from here, broken.text_eq, List.take_left]
  have behind_eq : text.drop place = behind := by
    rw [show place = _ from here, broken.text_eq, List.drop_left]
  have taken : text.take front.length = front := by
    rw [broken.text_eq, List.append_assoc, List.take_left]
  have indentation : ∀ c ∈ freshBlanks (adviceAbove (front ++ ['\n']) width).target
      (behind.takeWhile isIndentation), isIndentation c = true :=
    isIndentation_of_mem_freshBlanks fun c => List.mem_takeWhile_imp
  rw [upTo, behind_eq, show place = _ from here]
  refine ⟨?_, ?_, ?_⟩
  · intro inside
    obtain ⟨rfl, result_eq⟩ := broken.newlineAndIndent_of_inside here width inside
    rw [List.append_nil]
    exact result_eq
  · intro outside
    refine ⟨front.length, _, broken.spacingFrom, indentation, ?_, ?_⟩
    · rw [taken]
      exact broken.textWidth_indent outside nonneg _
    · rw [taken]
      exact broken.newlineAndIndent_of_outside here width outside
  · intro inCode
    rw [endsInCode_iff] at inCode
    have outside : (Snapshot.ofText text).inString (front ++ blanks).length = false := by
      rw [broken.inString_eq, ← broken.after_eq, inCode]
      rfl
    rw [show result = _ from broken.newlineAndIndent_of_outside here width outside]
    exact broken.solid_eq (broken.after_eq ▸ inCode) indentation

/-- The break in front of an element that is code, with the blanks around it. -/
theorem newlineAndIndent_breaks_list :
    (0 : Int) ≤ 2 ∧ (Snapshot.ofText "(a  b)".toList).inString 3 = false ∧
      EndsInCode "(a ".toList ∧
      ∃ cut indent, (Snapshot.ofText "(a  b)".toList).SpacingFrom cut 3 ∧
        (textWidth indent : Int) =
          ((Snapshot.ofText ("(a  b)".toList.take cut ++ ['\n'])).advise (cut + 1) 2).column?.getD 0 ∧
        newlineAndIndent "(a  b)".toList 3 2 =
          ("(a  b)".toList.take cut ++ '\n' :: indent ++ "b)".toList, (cut : Int) + 1 + indent.length) ∧
        (Snapshot.ofText (newlineAndIndent "(a  b)".toList 3 2).1).solid =
          (Snapshot.ofText "(a  b)".toList).solid := by
  have outside : (Snapshot.ofText "(a  b)".toList).inString 3 = false :=
    Snapshot.inString_ofText "(a ".toList " b)".toList
  have inCode : EndsInCode "(a ".toList := (endsInCode_iff _).mpr rfl
  obtain ⟨-, breaks, keeps⟩ := newlineAndIndent_breaks "(a  b)".toList 3 (by decide : (0 : Int) ≤ 2)
  obtain ⟨cut, indent, spacing, -, wide, result⟩ := breaks outside
  exact ⟨by decide, outside, inCode, cut, indent, spacing, wide, result, keeps inCode⟩

end LispEditor
