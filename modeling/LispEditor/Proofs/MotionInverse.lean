import Mathlib.Data.List.DropRight
import LispEditor.Proofs.Advice

/-!
# Motions undo each other

A motion forwards passes over marks and then takes an atom, a string or a group; a motion back takes
one of these and then passes over marks. Begun where an element can begin or end, each of them is
undone by the other, up to the blanks in between.

* `FirstSolid`, `LastSolid`: the nearest character that is no blank, said by offsets.
* `backward?_of_forward?`: back from the end of an element to its first character.
* `forward?_of_backward?_string`, `forward?_of_backward?_group`, `forward?_of_backward?_atoms`: forwards
  from the start of an element to its end, by what the motion back met.
* `motions_undo`: both directions, for every text.
-/

namespace LispEditor

/-- Every list ends with a longest part of items that `p` holds of. -/
theorem exists_longest_suffix {α : Type} (p : α → Bool) (items : List α) :
    ∃ front back, items = front ++ back ∧ (∀ item ∈ back, p item = true) ∧
      ∀ item ∈ front.getLast?, p item = false := by
  refine ⟨items.rdropWhile p, items.rtakeWhile p, List.rdropWhile_append_rtakeWhile.symm,
    fun item => List.mem_rtakeWhile_imp, ?_⟩
  intro item last
  have nonempty : items.rdropWhile p ≠ [] := by
    rintro empty
    rw [empty] at last
    cases last
  rw [List.getLast?_eq_some_getLast nonempty, Option.mem_some_iff] at last
  subst last
  exact Bool.eq_false_iff.mpr (List.rdropWhile_last_not p items nonempty)

namespace Snapshot

/-! ### Where elements begin and end -/

/-- A place where an element can begin: the start of the text, a place behind a character that is no
part of an atom, or a blank. -/
def CanBegin (s : Snapshot) (offset : Nat) : Prop :=
  offset = 0 ∨ (∀ cell ∈ (s.cellsBefore offset).head?, cell.isAtom = false) ∨
    ∃ cell ∈ (s.cellsFrom offset).head?, cell.isBlank = true

/-- A place where an element can end: the end of the text, a blank or a closer, or a place behind a
blank. -/
def CanEnd (s : Snapshot) (offset : Nat) : Prop :=
  offset = s.size ∨
    (∃ cell ∈ (s.cellsFrom offset).head?, cell.isBlank = true ∨ cell.closes = true) ∨
    ∃ cell ∈ (s.cellsBefore offset).head?, cell.isBlank = true

/-- `place` is the first offset from `offset` on whose character is no blank. -/
structure FirstSolid (s : Snapshot) (offset place : Nat) : Prop where
  le : offset ≤ place
  blank : ∀ i, offset ≤ i → i < place → ∃ cell ∈ s.cells[i]?, cell.isBlank = true
  solid : ∃ cell ∈ s.cells[place]?, cell.isBlank = false

/-- `place` is the end of the last character before `offset` that is no blank. -/
structure LastSolid (s : Snapshot) (offset place : Nat) : Prop where
  le : place ≤ offset
  blank : ∀ i, place ≤ i → i < offset → ∃ cell ∈ s.cells[i]?, cell.isBlank = true
  solid : ∃ last, place = last + 1 ∧ ∃ cell ∈ s.cells[last]?, cell.isBlank = false

section Places

variable {s : Snapshot} {before blanks behind : List Cell}

/-- The cells of a snapshot, divided at an offset. -/
theorem exists_division {offset : Nat} (inside : offset ≤ s.size) :
    ∃ before behind, s.cells = before ++ behind ∧ before.length = offset :=
  ⟨s.cells.take offset, s.cells.drop offset, (List.take_append_drop offset s.cells).symm, by
    rw [List.length_take]
    exact Nat.min_eq_left inside⟩

theorem head?_cellsFrom (division : s.cells = before ++ behind) :
    (s.cellsFrom before.length).head? = behind.head? := by
  rw [cellsFrom, division, List.drop_left]

theorem head?_cellsBefore (division : s.cells = before ++ behind) :
    (s.cellsBefore before.length).head? = before.getLast? := by
  rw [cellsBefore, division, List.take_left, List.head?_reverse]

theorem getElem?_cells {cell : Cell} (division : s.cells = before ++ cell :: behind) :
    s.cells[before.length]? = some cell := by
  rw [division, List.getElem?_append_right (Nat.le_refl _), Nat.sub_self, List.getElem?_cons_zero]

/-- The cells of a piece in the middle are those of the piece. -/
theorem exists_mem_of_between (division : s.cells = before ++ blanks ++ behind) {i : Nat}
    (low : before.length ≤ i) (high : i < (before ++ blanks).length) :
    ∃ cell ∈ s.cells[i]?, cell ∈ blanks := by
  have inside : i - before.length < blanks.length := by
    rw [List.length_append] at high
    omega
  refine ⟨blanks[i - before.length], ?_, List.getElem_mem inside⟩
  rw [division, List.getElem?_append_left high, List.getElem?_append_right low,
    List.getElem?_eq_getElem inside]
  rfl

theorem firstSolid_of_cells {cell : Cell} (division : s.cells = before ++ blanks ++ cell :: behind)
    (blank : ∀ other ∈ blanks, other.isBlank = true) (solid : cell.isBlank = false) :
    s.FirstSolid before.length (before ++ blanks).length where
  le := (List.sublist_append_left before blanks).length_le
  blank := by
    intro i low high
    obtain ⟨other, here, member⟩ := exists_mem_of_between division low high
    exact ⟨other, here, blank other member⟩
  solid := ⟨cell, getElem?_cells division, solid⟩

theorem lastSolid_of_cells {cell : Cell}
    (division : s.cells = before ++ [cell] ++ blanks ++ behind)
    (blank : ∀ other ∈ blanks, other.isBlank = true) (solid : cell.isBlank = false) :
    s.LastSolid (before ++ [cell] ++ blanks).length (before ++ [cell]).length where
  le := (List.sublist_append_left _ blanks).length_le
  blank := by
    intro i low high
    obtain ⟨other, here, member⟩ := exists_mem_of_between division low high
    exact ⟨other, here, blank other member⟩
  solid := by
    have ends : s.cells = before ++ cell :: (blanks ++ behind) := by simp [division]
    exact ⟨before.length, List.length_append, cell, getElem?_cells ends, solid⟩

end Places

/-! ### Back from the end of an element -/

/-- Blanks are no parts of atoms. -/
theorem Approach.apart_of_canBegin {s : Snapshot} {before blanks marks body : List Cell}
    (approach : s.Approach before blanks marks body) (begins : s.CanBegin before.length) :
    ∀ cell ∈ (before ++ blanks).getLast?, cell.isAtom = false := by
  have division : s.cells = before ++ (blanks ++ (marks ++ body)) := by simp [approach.cells_eq]
  rw [CanBegin, head?_cellsBefore division, head?_cellsFrom division] at begins
  intro cell last
  rcases List.eq_nil_or_concat blanks with rfl | ⟨inner, blank, rfl⟩
  · rw [List.append_nil] at last
    rcases begins with empty | apart | ⟨first, head, blank⟩
    · rw [List.length_eq_zero_iff.mp empty] at last
      cases last
    · exact apart cell last
    · rw [List.nil_append] at head
      have solid := approach.noBlank first head
      rw [blank] at solid
      cases solid
  · rw [List.concat_eq_append] at last approach
    have same : blank = cell := by simpa using last
    subst same
    refine Bool.eq_false_iff.mpr fun atom => ?_
    have isBlank := approach.blank blank (by simp)
    rw [Cell.isBlank_of_isAtom atom] at isBlank
    cases isBlank

/-- Where a motion forwards ended, something is behind the blanks that it passed over. -/
theorem Approach.exists_solid {text : Text} {before blanks marks body : List Cell}
    (approach : (ofText text).Approach before blanks marks body) {stop : Int}
    (found : (ofText text).forward? before.length = some stop) :
    ∃ cell rest, marks ++ body = cell :: rest ∧ cell.isBlank = false := by
  have nonempty : marks ++ body ≠ [] := by
    intro empty
    obtain ⟨rfl, rfl⟩ := List.append_eq_nil_iff.mp empty
    rw [approach.forward?_marks fun cell head => nomatch head] at found
    cases found
  obtain ⟨cell, rest, split⟩ := List.exists_cons_of_ne_nil nonempty
  refine ⟨cell, rest, split, approach.noBlank cell ?_⟩
  rw [split]
  rfl

/-- **From the end of an element a motion back leads to its start**, behind the blanks. -/
theorem backward?_of_forward? {text : Text} {offset : Nat} (inside : offset ≤ (ofText text).size)
    (outside : (ofText text).inString offset = false) (begins : (ofText text).CanBegin offset)
    {stop : Int} (found : (ofText text).forward? offset = some stop) :
    ∃ start : Nat, (ofText text).backward? stop = some (start : Int) ∧
      (ofText text).FirstSolid offset start := by
  obtain ⟨before, behind, split, rfl⟩ := exists_division inside
  obtain ⟨blanks, marks, body, -, approach⟩ := exists_approach split
  obtain ⟨cell, rest, first, solid⟩ := approach.exists_solid found
  have passed : (ofText text).cells = before ++ (blanks ++ marks) ++ body := by
    simp [approach.cells_eq]
  have division : (ofText text).cells = before ++ blanks ++ cell :: rest := by
    rw [approach.cells_eq, List.append_assoc _ marks, first]
  have stillOutside : (ofText text).inString (before ++ blanks ++ marks).length = false := by
    rw [List.append_assoc]
    exact inString_append passed (fun other => approach.kind_of_mem) fun _ => outside
  exact ⟨(before ++ blanks).length,
    approach.backward?_forward? (approach.apart_of_canBegin begins) stillOutside found,
    firstSolid_of_cells division approach.blank solid⟩

/-! ### Forwards from the start of an element -/

/-- A motion back does not see the blanks that it begins behind. -/
theorem backward?_append_blanks {s : Snapshot} {before blanks after : List Cell}
    (division : s.cells = before ++ blanks ++ after)
    (blank : ∀ cell ∈ blanks, cell.isBlank = true) :
    s.backward? (before ++ blanks).length = s.backward? before.length := by
  have shorter : s.cells = before ++ (blanks ++ after) := by simp [division]
  have passed : (s.cellsBefore (before ++ blanks).length).dropWhile Cell.isBlank =
      (s.cellsBefore before.length).dropWhile Cell.isBlank := by
    have all : ∀ cell ∈ blanks.reverse, cell.isBlank = true :=
      fun cell member => blank cell (List.mem_reverse.mp member)
    have far : s.cellsBefore (before ++ blanks).length = blanks.reverse ++ before.reverse := by
      rw [cellsBefore, division, List.take_left, List.reverse_append]
    have near : s.cellsBefore before.length = before.reverse := by
      rw [cellsBefore, shorter, List.take_left]
    rw [far, near, List.dropWhile_append_of_pos all]
  unfold backward?
  rw [clamp_cells division, clamp_cells shorter, passed]

/-- An offset before a character that is no part of a string is in no string. -/
theorem inString_of_kind {text : Text} {front after : List Cell} {cell : Cell}
    (division : (ofText text).cells = front ++ cell :: after) (other : cell.kind ≠ .string) :
    (ofText text).inString front.length = false := by
  refine Bool.eq_false_iff.mpr fun inside => other ?_
  have chars : text = front.map Cell.char ++ cell.char :: after.map Cell.char := by
    have whole : (ofText text).cells.map Cell.char = text := text_ofText text
    rw [division] at whole
    simpa using whole.symm
  have cells : (ofText text).cells = Mode.code.cells (front.map Cell.char) ++
      (Mode.code.after (front.map Cell.char)).cells (cell.char :: after.map Cell.char) := by
    conv => lhs; rw [chars, ofText_eq_snapshot]
    exact Mode.cells_append _ _ _
  have sizes : front.length = (Mode.code.cells (front.map Cell.char)).length := by
    rw [Mode.length_cells, List.length_map]
  rw [division] at cells
  have tails := (List.append_inj cells sizes).2
  rw [(List.cons.inj tails).1]
  have place := inString_ofText (front.map Cell.char) (cell.char :: after.map Cell.char)
  rw [← chars, List.length_map, inside] at place
  exact (Mode.kindOf_eq_string _ _).mpr (Or.inl place.symm)

/-- A string that ends before an offset outside strings ends there and is closed. -/
theorem stop_eq_of_outside {text : Text} {last : Nat} {span : Span}
    (lookup : (ofText text).stringSpan? last = some span)
    (outside : (ofText text).inString (last + 1 : Nat) = false) :
    span.stop = last + 1 ∧ (ofText text).isOpenString span = false := by
  obtain ⟨member, low, high⟩ := stringSpan?_ofText.mp lookup
  have inside := stop_le_size member
  have here : (ofText text).clamp ((last + 1 : Nat) : Int) = last + 1 :=
    Text.clamp_natCast_of_le (by omega)
  unfold inString at outside
  rw [here] at outside
  simp only [lookup, Bool.and_eq_false_iff, Bool.or_eq_false_iff, decide_eq_false_iff_not] at outside
  rcases outside with late | ⟨near, closed⟩
  · omega
  · exact ⟨by omega, closed⟩

section Forward

variable {text : Text} {front after : List Cell} {last : Cell} {start : Int}

/-- Marks and what stands behind them, met by a motion that begins with them. -/
theorem approach_of_marks {s : Snapshot} {before marks body : List Cell}
    (division : s.cells = before ++ marks ++ body) (mark : ∀ cell ∈ marks, cell.isMark = true)
    (noMark : ∀ cell ∈ body.head?, cell.isMark = false)
    (noBlank : marks = [] → ∀ cell ∈ body.head?, cell.isBlank = false) :
    s.Approach before [] marks body where
  cells_eq := by rw [division, List.append_nil]
  blank := fun cell member => nomatch member
  noBlank := by
    intro cell head
    cases marks with
    | nil => exact noBlank rfl cell head
    | cons first others =>
        obtain rfl : first = cell := Option.some.inj head
        exact Cell.isBlank_of_isAtom (Cell.isAtom_of_isMark (mark first List.mem_cons_self))
  mark := mark
  noMark := noMark

/-- The motion forwards over a string that a motion back has passed. -/
theorem forward?_of_backward?_string (division : (ofText text).cells = front ++ last :: after)
    (string : last.kind = .string)
    (outside : (ofText text).inString (front ++ [last]).length = false)
    (found : (ofText text).backward? (front ++ [last]).length = some start) :
    (ofText text).forward? start = some ((front ++ [last]).length : Int) := by
  have kind : ((ofText text).cells[front.length]?).map Cell.kind = some .string := by
    rw [getElem?_cells division]
    exact congrArg some string
  obtain ⟨span, lookup⟩ := exists_stringSpan? kind
  obtain ⟨member, low, -⟩ := stringSpan?_ofText.mp lookup
  have nonneg := start_nonneg member
  rw [List.length_append, List.length_singleton] at outside
  obtain ⟨stop, closed⟩ := stop_eq_of_outside lookup outside
  -- The string begins in the text before it, behind its marks.
  obtain ⟨before, marks, begins, mark, noMark⟩ :=
    exists_longest_suffix Cell.isMark (front.take span.start.toNat)
  have place : (before ++ marks).length = span.start.toNat := by
    rw [← begins, List.length_take]
    exact Nat.min_eq_left (by omega)
  obtain ⟨first, rest, body⟩ : ∃ first rest, front.drop span.start.toNat ++ [last] = first :: rest :=
    List.exists_cons_of_ne_nil (by simp)
  have whole : front ++ [last] = before ++ marks ++ first :: rest := by
    rw [← begins, ← body, ← List.append_assoc, List.take_append_drop]
  have cells : (ofText text).cells = before ++ marks ++ first :: rest ++ after := by
    rw [← whole, division, List.append_assoc, List.singleton_append]
  have isString : first.kind = .string := by
    have here : ((ofText text).cells[(before ++ marks).length]?).map Cell.kind = some .string :=
      kind_of_mem_strings member (by omega) (by omega)
    have begins : (ofText text).cells = before ++ marks ++ first :: (rest ++ after) := by simp [cells]
    rw [getElem?_cells begins] at here
    exact Option.some.inj here
  have back := backward?_string cells member (by omega)
    (by rw [stop, ← whole, List.length_append, List.length_singleton]; rfl) mark noMark
  rw [← whole, found] at back
  obtain rfl : start = before.length := Option.some.inj back
  have approach : (ofText text).Approach before [] marks (first :: (rest ++ after)) := by
    refine approach_of_marks (by simp [cells]) mark ?_ ?_
    · intro cell head
      obtain rfl : first = cell := Option.some.inj head
      exact Cell.isMark_of_not_isAtom (Bool.eq_false_iff.mpr fun atom =>
        Cell.kind_of_isAtom atom isString)
    · intro _ cell head
      obtain rfl : first = cell := Option.some.inj head
      exact Cell.isBlank_of_kind isString
  have same : (ofText text).stringSpan? (before ++ [] ++ marks).length = some span := by
    rw [List.append_nil, stringSpan?_ofText]
    exact ⟨member, by omega, by omega⟩
  rw [approach.forward?_string isString, same, Option.filter_some, closed]
  simp [stop]

/-- The motion forwards over a group that a motion back has passed. -/
theorem forward?_of_backward?_group {s : Snapshot} (division : s.cells = front ++ last :: after)
    (closes : last.closes = true) (found : s.backward? (front ++ [last]).length = some start) :
    s.forward? start = some ((front ++ [last]).length : Int) := by
  have notString : (last.kind == .string) = false := by
    rw [Cell.kind_of_isCode (Cell.isCode_of_closes closes)]
    rfl
  have notOpener : last.opens = false :=
    Bool.eq_false_iff.mpr fun both => by simp [Cell.closes_of_opens both] at closes
  have search : ∃ opener, enclosingOpener 0 front.reverse = some opener := by
    refine Option.ne_none_iff_exists'.mp fun missing => ?_
    unfold backward? at found
    rw [cellsBefore_concat division (Cell.isBlank_of_closes closes)] at found
    simp only [notString, notOpener, closes, Bool.false_eq_true, if_false, if_true,
      List.length_reverse, enclosing?, clamp_cells division, cellsBefore, division, List.take_left,
      missing, Option.map_none] at found
    cases found
  obtain ⟨left, search⟩ := search
  obtain ⟨outer, opener, inner, rfl, -, opens, stays, closer⟩ :=
    OpenGroups.exists_of_enclosingOpener search
  obtain ⟨before, marks, rfl, mark, noMark⟩ := exists_longest_suffix Cell.isMark outer
  have cells : s.cells = before ++ marks ++ (opener :: inner ++ [last]) ++ after := by
    simp [division]
  have back := backward?_group cells opens stays closes mark noMark
  have regroup : before ++ marks ++ (opener :: inner ++ [last]) =
      before ++ marks ++ opener :: inner ++ [last] := by simp
  rw [regroup, found] at back
  obtain rfl : start = before.length := Option.some.inj back
  have approach : s.Approach before [] marks (opener :: (inner ++ last :: after)) := by
    refine approach_of_marks (by simp [division]) mark ?_ ?_
    · intro cell head
      obtain rfl : opener = cell := Option.some.inj head
      exact Cell.isMark_of_not_isAtom (Cell.isAtom_of_opens opens)
    · intro _ cell head
      obtain rfl : opener = cell := Option.some.inj head
      exact Cell.isBlank_of_opens opens
  have ends : enclosingCloser 0 (inner ++ last :: after) = some after.length := by
    rw [closer]
    simp [enclosingCloser, notOpener, closes]
  have size : s.size - after.length = (before ++ marks ++ opener :: inner ++ [last]).length := by
    rw [size, division]
    simp only [List.length_append, List.length_cons, List.length_nil]
    omega
  rw [approach.forward?_opens opens, ends, Option.map_some, size]

/-- The motion forwards over an atom that a motion back has passed, or over marks alone. -/
theorem forward?_of_backward?_atoms {s : Snapshot} (division : s.cells = front ++ last :: after)
    (atom : last.isAtom = true)
    (ends : ∀ cell ∈ after.head?, cell.isBlank = true ∨ cell.closes = true)
    (found : s.backward? (front ++ [last]).length = some start) :
    s.forward? start = some ((front ++ [last]).length : Int) := by
  have noAtom : ∀ cell ∈ after.head?, cell.isAtom = false := by
    intro cell head
    refine Bool.eq_false_iff.mpr fun isAtom => ?_
    rcases ends cell head with blank | closes
    · simp [Cell.isBlank_of_isAtom isAtom] at blank
    · simp [Cell.closes_of_isAtom isAtom] at closes
  obtain ⟨before, atoms, whole, all, apart⟩ := exists_longest_suffix Cell.isAtom (front ++ [last])
  have nonempty : atoms ≠ [] := by
    rintro rfl
    rw [List.append_nil] at whole
    have notAtom := apart last (by simp [← whole])
    rw [atom] at notAtom
    cases notAtom
  have cells : s.cells = before ++ atoms ++ after := by
    rw [← whole, division, List.append_assoc, List.singleton_append]
  have back := backward?_atoms cells nonempty all apart
  rw [← whole, found] at back
  obtain rfl : start = before.length := Option.some.inj back
  -- Marks at the start of an atom are passed over on their own.
  let marks := atoms.takeWhile Cell.isMark
  let body := atoms.dropWhile Cell.isMark
  have pieces : atoms = marks ++ body := List.takeWhile_append_dropWhile.symm
  have mark : ∀ cell ∈ marks, cell.isMark = true := fun cell => List.mem_takeWhile_imp
  have parts : ∀ cell ∈ body, cell.isAtom = true := by
    intro cell member
    exact all cell (pieces ▸ List.mem_append_right marks member)
  have division' : s.cells = before ++ marks ++ (body ++ after) := by
    rw [cells, pieces, ← List.append_assoc, ← List.append_assoc]
  rw [whole, pieces]
  cases body_eq : body with
  | nil =>
      have marked : marks ≠ [] := by
        intro empty
        rw [empty, body_eq] at pieces
        exact nonempty pieces
      rw [body_eq, List.nil_append] at division'
      have approach := approach_of_marks division' mark
        (fun cell head => Cell.isMark_of_not_isAtom (noAtom cell head)) fun empty => absurd empty marked
      rw [approach.forward?_marks, if_neg marked, List.append_nil, List.append_nil]
      intro cell head
      refine ⟨fun string => ?_, ?_, noAtom cell head⟩
      · rcases ends cell head with blank | closes
        · simp [Cell.isBlank_of_kind string] at blank
        · simp [Cell.kind_of_isCode (Cell.isCode_of_closes closes)] at string
      · rcases ends cell head with blank | closes
        · exact Cell.opens_of_isBlank blank
        · exact Bool.eq_false_iff.mpr fun both => by simp [Cell.closes_of_opens both] at closes
  | cons first others =>
      rw [body_eq] at division' parts
      have noMark : first.isMark = false :=
        eq_false_of_mem_head?_dropWhile (show first ∈ body.head? by rw [body_eq]; rfl)
      have approach := approach_of_marks division' mark
        (fun cell head => by
          obtain rfl : first = cell := Option.some.inj head
          exact noMark)
        (fun _ cell head => by
          obtain rfl : first = cell := Option.some.inj head
          exact Cell.isBlank_of_isAtom (parts first List.mem_cons_self))
      rw [approach.forward?_atom (List.cons_ne_nil first others) parts noAtom, List.append_nil,
        List.append_assoc]

/-- There is no way back out of a group. -/
theorem backward?_of_opens {s : Snapshot} (division : s.cells = front ++ last :: after)
    (opens : last.opens = true) : s.backward? (front ++ [last]).length = none := by
  have notString : (last.kind == .string) = false := by
    rw [Cell.kind_of_isCode (Cell.isCode_of_opens opens)]
    rfl
  unfold backward?
  rw [cellsBefore_concat division (Cell.isBlank_of_opens opens)]
  simp only [notString, opens, Bool.false_eq_true, if_false, if_true, Option.map_none]

end Forward

/-- **From the start of an element a motion forwards leads to its end**, before the blanks. -/
theorem forward?_of_backward? {text : Text} {offset : Nat} (inside : offset ≤ (ofText text).size)
    (outside : (ofText text).inString offset = false) (ends : (ofText text).CanEnd offset)
    {start : Int} (found : (ofText text).backward? offset = some start) :
    ∃ stop : Nat, (ofText text).forward? start = some (stop : Int) ∧
      (ofText text).LastSolid offset stop := by
  obtain ⟨above, after, split, rfl⟩ := exists_division inside
  obtain ⟨passed, blanks, rfl, blank, apart⟩ := exists_longest_suffix Cell.isBlank above
  rw [backward?_append_blanks split blank] at found
  rcases List.eq_nil_or_concat passed with rfl | ⟨front, last, rfl⟩
  · simp [backward?, clamp, Text.clamp, cellsBefore] at found
  rw [List.concat_eq_append] at split apart found outside ends ⊢
  have division : (ofText text).cells = front ++ last :: (blanks ++ after) := by simp [split]
  have noBlank : last.isBlank = false := apart last (by simp)
  have stops : ∀ cell ∈ (blanks ++ after).head?, cell.isBlank = true ∨ cell.closes = true := by
    intro cell head
    cases blanks with
    | cons first others =>
        obtain rfl : first = cell := Option.some.inj head
        exact Or.inl (blank first List.mem_cons_self)
    | nil =>
        rw [List.nil_append] at head
        rw [List.append_nil] at split
        rw [List.append_nil, CanEnd, head?_cellsFrom split, head?_cellsBefore split, size, split,
          List.getLast?_concat] at ends
        rcases ends with whole | ⟨other, first, role⟩ | ⟨other, isLast, isBlank⟩
        · have empty : after = [] := by
            refine List.length_eq_zero_iff.mp ?_
            simp only [List.length_append] at whole
            omega
          rw [empty] at head
          cases head
        · rw [Option.mem_unique head first]
          exact role
        · obtain rfl : last = other := Option.some.inj isLast
          rw [noBlank] at isBlank
          cases isBlank
  have here : (ofText text).inString (front ++ [last]).length = false := by
    cases blanks with
    | nil => rwa [List.append_nil] at outside
    | cons first others =>
        have next : (ofText text).cells = front ++ [last] ++ first :: (others ++ after) := by
          simp [split]
        refine inString_of_kind next fun string => ?_
        have isBlank := blank first List.mem_cons_self
        rw [Cell.isBlank_of_kind string] at isBlank
        cases isBlank
  refine ⟨(front ++ [last]).length, ?_, lastSolid_of_cells split blank noBlank⟩
  rcases last.role_cases with isBlank | string | opens | closes | atom
  · rw [noBlank] at isBlank
    cases isBlank
  · exact forward?_of_backward?_string division string here found
  · rw [backward?_of_opens division opens] at found
    cases found
  · exact forward?_of_backward?_group division closes found
  · exact forward?_of_backward?_atoms division atom stops found

/-- **The motions over elements undo each other** at the boundaries of elements, outside strings. -/
theorem motions_undo (text : Text) :
    (∀ offset ≤ (ofText text).size, (ofText text).inString offset = false →
      (ofText text).CanBegin offset → ∀ stop, (ofText text).forward? offset = some stop →
        ∃ start : Nat, (ofText text).backward? stop = some (start : Int) ∧
          (ofText text).FirstSolid offset start) ∧
    ∀ offset ≤ (ofText text).size, (ofText text).inString offset = false →
      (ofText text).CanEnd offset → ∀ start, (ofText text).backward? offset = some start →
        ∃ stop : Nat, (ofText text).forward? start = some (stop : Int) ∧
          (ofText text).LastSolid offset stop :=
  ⟨fun _ inside outside begins _ => backward?_of_forward? inside outside begins,
    fun _ inside outside ends _ => forward?_of_backward? inside outside ends⟩

/-- Over a quoted group with a bracket in a string, there and back, and back from behind a comment. -/
theorem motions_undo_quoted_group :
    (ofText "[ '(a \"]\") ;c\n]".toList).forward? (1 : Nat) = some 10 ∧
      (∃ start : Nat, (ofText "[ '(a \"]\") ;c\n]".toList).backward? 10 = some (start : Int) ∧
        (ofText "[ '(a \"]\") ;c\n]".toList).FirstSolid 1 start) ∧
      (ofText "[ '(a \"]\") ;c\n]".toList).backward? (14 : Nat) = some 2 ∧
      ∃ stop : Nat, (ofText "[ '(a \"]\") ;c\n]".toList).forward? 2 = some (stop : Int) ∧
        (ofText "[ '(a \"]\") ;c\n]".toList).LastSolid 14 stop := by
  have forwards : (ofText "[ '(a \"]\") ;c\n]".toList).forward? (1 : Nat) = some 10 := by
    rw [ofText_eq_snapshot]
    decide
  have back : (ofText "[ '(a \"]\") ;c\n]".toList).backward? (14 : Nat) = some 2 := by
    rw [ofText_eq_snapshot]
    decide
  have begins : (ofText "[ '(a \"]\") ;c\n]".toList).CanBegin 1 := by
    rw [CanBegin, ofText_eq_snapshot]
    decide
  have ends : (ofText "[ '(a \"]\") ;c\n]".toList).CanEnd 14 := by
    rw [CanEnd, ofText_eq_snapshot]
    decide
  have size : (ofText "[ '(a \"]\") ;c\n]".toList).size = 15 := size_scan _ false
  have outside : (ofText "[ '(a \"]\") ;c\n]".toList).inString (1 : Nat) = false :=
    inString_ofText ['['] " '(a \"]\") ;c\n]".toList
  have outside' : (ofText "[ '(a \"]\") ;c\n]".toList).inString (14 : Nat) = false :=
    inString_ofText "[ '(a \"]\") ;c\n".toList [']']
  have both := motions_undo "[ '(a \"]\") ;c\n]".toList
  exact ⟨forwards, both.1 1 (by omega) outside begins 10 forwards, back,
    both.2 14 (by omega) outside' ends 2 back⟩

end Snapshot

end LispEditor
