import LispEditor.Indent.OpenGroups
import LispEditor.Proofs.MotionInverse

/-!
# Motions that look characters up

A snapshot keeps a character and its kind together, and its motions run over lists of such cells. A
buffer can also be kept as tables: the text, the kinds and the strings, each for itself. A motion over
tables goes from offset to offset and looks up what stands there, and a look-up outside a table fails.

The motions are written down here for tables. `Tables.forward_tables`, `backward_tables`,
`enclosing_tables` and `intoGroup_tables` say that over the tables of a text no look-up fails, whatever
the offset, and that the answers are those of the motions over cells.

* `skipForward_tables`, `skipBackward_tables`: loops over characters of one role.
* `matchForward_tables`, `matchBackward_closer`: loops that count brackets.
* `spanAt_tables`, `isOpenString_tables`: look-up among the strings.
-/

namespace LispEditor

/-- What was looked up is handed on. -/
@[simp]
theorem ok_bind {ε α β : Type} (value : α) (next : α → Except ε β) :
    (Except.ok value >>= next) = next value := rfl

/-- The item at an offset, which has to lie in the list. -/
def lookUp {α : Type} (items : List α) (offset : Int) : Except OffsetError α :=
  match if 0 ≤ offset then items[offset.toNat]? else none with
  | some item => .ok item
  | none => .error .outOfRange

theorem lookUp_natCast {α : Type} {items : List α} {offset : Nat} {item : α}
    (here : items[offset]? = some item) : lookUp items offset = .ok item := by
  rw [lookUp, if_pos (Int.natCast_nonneg offset), Int.toNat_natCast, here]

/-- A buffer text, the kinds of its characters and the spans of its strings, kept apart. -/
structure Tables where
  text : Text
  kinds : List Kind
  strings : List Span
  endsInString : Bool
  deriving DecidableEq, Repr

/-- The tables of a snapshot. -/
def Snapshot.tables (s : Snapshot) : Tables :=
  ⟨s.text, s.kinds, s.strings, s.endsInString⟩

namespace Tables

/-- The offset of the text nearest to `offset`. -/
def clamp (t : Tables) (offset : Int) : Nat :=
  Text.clamp t.text.length offset

/-- The character at an offset with its kind: both are looked up. -/
def cell (t : Tables) (offset : Int) : Except OffsetError Cell := do
  let kind ← lookUp t.kinds offset
  let char ← lookUp t.text offset
  .ok ⟨char, kind⟩

/-! ### Loops -/

/-- Goes on from `offset` as long as `test` holds of the cell there. -/
def skipForward (t : Tables) (test : Cell → Bool) (offset : Nat) : Except OffsetError Nat :=
  if offset < t.text.length then do
    let cell ← t.cell offset
    if test cell then t.skipForward test (offset + 1) else .ok offset
  else .ok offset
termination_by t.text.length - offset

/-- Goes back from an offset as long as `test` holds of the cell before it. -/
def skipBackward (t : Tables) (test : Cell → Bool) : Nat → Except OffsetError Nat
  | 0 => .ok 0
  | last + 1 => do
      let cell ← t.cell last
      if test cell then t.skipBackward test last else .ok (last + 1)

/-- Goes on from `offset` to the closer behind which no group is open any more, if `depth` groups are
open before it. -/
def matchForward (t : Tables) (depth : Int) (offset : Nat) : Except OffsetError (Option Nat) :=
  if offset < t.text.length then do
    let cell ← t.cell offset
    if cell.opens then t.matchForward (depth + 1) (offset + 1)
    else if cell.closes then
      if depth - 1 = 0 then .ok (some (offset + 1)) else t.matchForward (depth - 1) (offset + 1)
    else t.matchForward depth (offset + 1)
  else .ok none
termination_by t.text.length - offset

/-- Goes back from an offset to the opener before which no group has been entered any more, if `depth`
groups have been entered from their ends. -/
def matchBackward (t : Tables) (depth : Int) : Nat → Except OffsetError (Option Nat)
  | 0 => .ok none
  | last + 1 => do
      let cell ← t.cell last
      if cell.closes then t.matchBackward (depth + 1) last
      else if cell.opens then
        if depth - 1 = 0 then .ok (some last) else t.matchBackward (depth - 1) last
      else t.matchBackward depth last

/-- Goes back from an offset to the opener of the group around it, with `depth` groups entered from
their ends. -/
def enclosingFrom (t : Tables) (depth : Int) : Nat → Except OffsetError (Option Nat)
  | 0 => .ok none
  | last + 1 => do
      let cell ← t.cell last
      if cell.closes then t.enclosingFrom (depth + 1) last
      else if cell.opens then
        if depth = 0 then .ok (some last) else t.enclosingFrom (depth - 1) last
      else t.enclosingFrom depth last

/-! ### Strings -/

/-- The span of the string that `offset` lies in. -/
def spanAt (t : Tables) (offset : Int) : Except OffsetError (Option Span) :=
  match partitionPoint (fun span => decide (span.start ≤ offset)) t.strings with
  | 0 => .ok none
  | after + 1 => do
      let span ← lookUp t.strings after
      .ok (if offset < span.stop then some span else none)

/-- Whether a span is that of the string which the text ends in: it then is the last one. -/
def isOpenString (t : Tables) (span : Span) : Except OffsetError Bool :=
  if t.endsInString then do
    let last ← lookUp t.strings (t.strings.length - 1)
    .ok (last == span)
  else .ok false

/-! ### Motions -/

/-- The opener of the group around `offset`. -/
def enclosing (t : Tables) (offset : Int) : Except OffsetError (Option Nat) :=
  t.enclosingFrom 0 (t.clamp offset)

/-- The offset just inside the next group. -/
def intoGroup (t : Tables) (offset : Int) : Except OffsetError (Option Nat) := do
  let next ← t.skipForward (fun cell => !cell.opens && !cell.closes) (t.clamp offset)
  if next < t.text.length then
    let cell ← t.cell next
    .ok (if cell.opens then some (next + 1) else none)
  else .ok none

/-- The end of the element behind `offset`. -/
def forward (t : Tables) (offset : Int) : Except OffsetError (Option Int) := do
  let element ← t.skipForward Cell.isBlank (t.clamp offset)
  let body ← t.skipForward Cell.isMark element
  let onlyMarks : Option Int := if element < body then some body else none
  if body < t.text.length then
    let cell ← t.cell body
    if cell.kind == .string then
      match ← t.spanAt body with
      | none => .ok none
      | some span => do
          let unended ← t.isOpenString span
          .ok (if unended then none else some span.stop)
    else if cell.opens then do
      let stop ← t.matchForward 0 body
      .ok (stop.map Int.ofNat)
    else do
      let stop ← t.skipForward Cell.isAtom body
      .ok (if stop = body then onlyMarks else some stop)
  else .ok onlyMarks

/-- The offset before the marks that end at `offset`. -/
def beforeMarks (t : Tables) (offset : Int) : Except OffsetError Int :=
  if 0 < offset then do
    let start ← t.skipBackward Cell.isMark offset.toNat
    .ok start
  else .ok offset

/-- The start of the element that ends with the character at `last`, without its marks. -/
def bodyStart (t : Tables) (last : Nat) : Except OffsetError (Option Int) := do
  let cell ← t.cell last
  if cell.kind == .string then
    let span ← t.spanAt last
    .ok (span.map Span.start)
  else if cell.opens then .ok none
  else if cell.closes then
    let start ← t.matchBackward 0 (last + 1)
    .ok (start.map Int.ofNat)
  else
    let start ← t.skipBackward Cell.isAtom last
    .ok (some start)

/-- The start of the element before `offset`, its marks included. -/
def backward (t : Tables) (offset : Int) : Except OffsetError (Option Int) := do
  match ← t.skipBackward Cell.isBlank (t.clamp offset) with
  | 0 => .ok none
  | last + 1 =>
      match ← t.bodyStart last with
      | none => .ok none
      | some start => do
          let start ← t.beforeMarks start
          .ok (some start)

/-! ### Look-ups in the tables of a snapshot -/

section Lookups

variable {s : Snapshot} {before behind : List Cell}

theorem length_text_tables (s : Snapshot) : s.tables.text.length = s.size :=
  s.length_text

theorem clamp_tables (s : Snapshot) (offset : Int) : s.tables.clamp offset = s.clamp offset := by
  rw [clamp, length_text_tables]
  rfl

theorem cell_tables {cell : Cell} (division : s.cells = before ++ cell :: behind) :
    s.tables.cell before.length = .ok cell := by
  have here := Snapshot.getElem?_cells division
  have kind : s.tables.kinds[before.length]? = some cell.kind := by
    rw [show s.tables.kinds = s.cells.map Cell.kind from rfl, List.getElem?_map, here]
    rfl
  have char : s.tables.text[before.length]? = some cell.char := by
    rw [show s.tables.text = s.cells.map Cell.char from rfl, List.getElem?_map, here]
    rfl
  rw [Tables.cell, lookUp_natCast kind, lookUp_natCast char]
  rfl

/-- An offset before some cell lies in the text. -/
theorem lt_length_tables {cell : Cell} (division : s.cells = before ++ cell :: behind) :
    before.length < s.tables.text.length := by
  rw [length_text_tables, Snapshot.size, division, List.length_append, List.length_cons]
  omega

theorem not_lt_length_tables (division : s.cells = before) :
    ¬ before.length < s.tables.text.length := by
  rw [length_text_tables, Snapshot.size, division]
  exact Nat.lt_irrefl _

/-- Behind a cell the loops go on. -/
theorem division_concat {cell : Cell} (division : s.cells = before ++ cell :: behind) :
    s.cells = (before ++ [cell]) ++ behind := by
  rw [division, List.append_assoc, List.singleton_append]

theorem skipForward_tables (division : s.cells = before ++ behind) (test : Cell → Bool) :
    s.tables.skipForward test before.length = .ok (before ++ behind.takeWhile test).length := by
  induction behind generalizing before with
  | nil =>
      rw [List.append_nil] at division
      rw [skipForward, if_neg (not_lt_length_tables division), List.takeWhile_nil, List.append_nil]
  | cons cell behind ih =>
      rw [skipForward, if_pos (lt_length_tables division), cell_tables division, ok_bind]
      by_cases holds : test cell = true
      · have next := ih (division_concat division)
        rw [List.length_append, List.length_singleton] at next
        rw [if_pos holds, next, List.takeWhile_cons_of_pos holds, List.append_assoc,
          List.singleton_append]
      · rw [if_neg holds, List.takeWhile_cons_of_neg holds, List.append_nil]

theorem skipBackward_tables (division : s.cells = before ++ behind) (test : Cell → Bool) :
    s.tables.skipBackward test before.length =
      .ok (before.length - (before.reverse.takeWhile test).length) := by
  induction before using List.reverseRecOn generalizing behind with
  | nil => rfl
  | append_singleton front cell ih =>
      rw [List.append_assoc, List.singleton_append] at division
      rw [List.length_append, List.length_singleton, skipBackward, cell_tables division, ok_bind,
        List.reverse_append, List.reverse_singleton, List.singleton_append]
      by_cases holds : test cell = true
      · rw [if_pos holds, ih division, List.takeWhile_cons_of_pos holds, List.length_cons,
          Nat.add_sub_add_right]
      · rw [if_neg holds, List.takeWhile_cons_of_neg holds]
        rfl

theorem matchForward_tables (division : s.cells = before ++ behind) (depth : Nat) :
    s.tables.matchForward (depth + 1) before.length =
      .ok ((enclosingCloser depth behind).map (s.size - ·)) := by
  induction behind generalizing before depth with
  | nil =>
      rw [List.append_nil] at division
      rw [matchForward, if_neg (not_lt_length_tables division)]
      rfl
  | cons cell behind ih =>
      have next (depth : Nat) := ih (division_concat division) depth
      simp only [List.length_append, List.length_singleton] at next
      rw [matchForward, if_pos (lt_length_tables division), cell_tables division, ok_bind]
      simp only [enclosingCloser]
      by_cases opens : cell.opens = true
      · rw [if_pos opens, if_pos opens]
        exact next (depth + 1)
      · rw [if_neg opens, if_neg opens]
        by_cases closes : cell.closes = true
        · rw [if_pos closes, if_pos closes, Int.add_sub_cancel]
          cases depth with
          | zero =>
              have size : s.size - behind.length = before.length + 1 := by
                rw [Snapshot.size, division, List.length_append, List.length_cons]
                omega
              rw [if_pos Int.natCast_zero, Option.map_some, size]
          | succ depth =>
              rw [if_neg (by omega)]
              exact next depth
        · rw [if_neg closes, if_neg closes]
          exact next depth

/-- From an opener on, the loop ends behind the closer that matches it. -/
theorem matchForward_opener {cell : Cell} (division : s.cells = before ++ cell :: behind)
    (opens : cell.opens = true) :
    s.tables.matchForward 0 before.length =
      .ok ((enclosingCloser 0 behind).map (s.size - ·)) := by
  have search := matchForward_tables (division_concat division) 0
  rw [List.length_append, List.length_singleton, Int.natCast_zero] at search
  rw [matchForward, if_pos (lt_length_tables division), cell_tables division, ok_bind,
    if_pos opens, search]

theorem enclosingFrom_tables (division : s.cells = before ++ behind) (depth : Nat) :
    s.tables.enclosingFrom depth before.length = .ok (enclosingOpener depth before.reverse) := by
  induction before using List.reverseRecOn generalizing behind depth with
  | nil => rfl
  | append_singleton front cell ih =>
      rw [List.append_assoc, List.singleton_append] at division
      rw [List.length_append, List.length_singleton, enclosingFrom, cell_tables division, ok_bind,
        List.reverse_append, List.reverse_singleton, List.singleton_append]
      simp only [enclosingOpener]
      by_cases closes : cell.closes = true
      · rw [if_pos closes, if_pos closes]
        exact ih division (depth + 1)
      · rw [if_neg closes, if_neg closes]
        by_cases opens : cell.opens = true
        · rw [if_pos opens, if_pos opens]
          cases depth with
          | zero => rw [if_pos Int.natCast_zero, List.length_reverse]
          | succ depth =>
              have outer : ((depth + 1 : Nat) : Int) - 1 = depth := by omega
              rw [if_neg (by omega), outer]
              exact ih division depth
        · rw [if_neg opens, if_neg opens]
          exact ih division depth

/-- With a group entered, the search for its opener is that for the group around. -/
theorem matchBackward_eq (t : Tables) (depth : Int) (offset : Nat) :
    t.matchBackward (depth + 1) offset = t.enclosingFrom depth offset := by
  induction offset generalizing depth with
  | zero => rfl
  | succ last ih =>
      have outer := ih (depth - 1)
      rw [Int.sub_add_cancel] at outer
      rw [matchBackward, enclosingFrom, Int.add_sub_cancel]
      simp only [ih, outer]

/-- Back from a closer, the loop ends at the opener that matches it. -/
theorem matchBackward_closer {cell : Cell} (division : s.cells = before ++ cell :: behind)
    (closes : cell.closes = true) :
    s.tables.matchBackward 0 (before.length + 1) = .ok (enclosingOpener 0 before.reverse) := by
  have search := enclosingFrom_tables division 0
  rw [Int.natCast_zero] at search
  rw [matchBackward, cell_tables division, ok_bind, if_pos closes, matchBackward_eq, search]

end Lookups

end Tables

/-- A binary search ends in the list or right behind it. -/
theorem partitionPoint_le {α : Type} (goesRight : α → Bool) (items : List α) :
    partitionPoint goesRight items ≤ items.length := by
  have bounded (low high : Nat) (order : low ≤ high) :
      partitionPoint.search goesRight items low high ≤ high := by
    fun_induction partitionPoint.search goesRight items low high with
    | case1 low high more middle item here right ih =>
        exact ih (by omega)
    | case2 low high more middle item here left ih =>
        have := ih (by omega)
        omega
    | case3 low high more middle missing => omega
    | case4 low high empty => omega
  exact bounded 0 items.length (Nat.zero_le _)

namespace Tables

theorem spanAt_tables (s : Snapshot) (offset : Int) :
    s.tables.spanAt offset = .ok (s.stringSpan? offset) := by
  have strings : s.tables.strings = s.strings := rfl
  have inside := partitionPoint_le (fun span => decide (span.start ≤ offset)) s.strings
  rw [spanAt, Snapshot.stringSpan?, strings]
  cases place : partitionPoint (fun span => decide (span.start ≤ offset)) s.strings with
  | zero => rfl
  | succ after =>
      rw [place] at inside
      have here := List.getElem?_eq_getElem (l := s.strings) inside
      simp only [lookUp_natCast here, ok_bind, here, Option.filter_some, decide_eq_true_eq]

/-- A text that ends in a string has one. -/
theorem isOpenString_tables (text : Text) (span : Span) :
    (Snapshot.ofText text).tables.isOpenString span =
      .ok ((Snapshot.ofText text).isOpenString span) := by
  have strings : (Snapshot.ofText text).tables.strings = (Snapshot.ofText text).strings := rfl
  have ending : (Snapshot.ofText text).tables.endsInString =
      (Snapshot.ofText text).endsInString := rfl
  rw [isOpenString, Snapshot.isOpenString, strings, ending]
  cases ends : (Snapshot.ofText text).endsInString with
  | false => rfl
  | true =>
      have nonempty : (Snapshot.ofText text).strings ≠ [] := by
        rw [Snapshot.ofText_eq_snapshot] at ends ⊢
        exact Mode.spans_ne_nil ends 0 0
      obtain ⟨init, last, split⟩ :
          ∃ init last, (Snapshot.ofText text).strings = init ++ [last] :=
        ⟨_, _, (List.dropLast_concat_getLast nonempty).symm⟩
      have place : (((init ++ [last]).length : Nat) : Int) - 1 = (init.length : Nat) := by
        rw [List.length_append, List.length_singleton]
        omega
      have here : (init ++ [last])[init.length]? = some last := by simp
      rw [split, if_pos rfl, place, lookUp_natCast here, ok_bind, List.getLast?_concat]
      rfl

end Tables

/-! ### Motions in the tables of a text -/

namespace Snapshot

/-- Motions begin at the offset of the snapshot nearest to the given one. -/
theorem forward?_clamp (s : Snapshot) (offset : Int) :
    s.forward? (s.clamp offset : Nat) = s.forward? offset := by
  simp only [forward?, clamp_clamp]

theorem backward?_clamp (s : Snapshot) (offset : Int) :
    s.backward? (s.clamp offset : Nat) = s.backward? offset := by
  simp only [backward?, clamp_clamp]

theorem enclosing?_clamp (s : Snapshot) (offset : Int) :
    s.enclosing? (s.clamp offset : Nat) = s.enclosing? offset := by
  simp only [enclosing?, clamp_clamp]

/-- Every motion divides the cells where it begins. -/
theorem exists_division_clamp (s : Snapshot) (offset : Int) :
    ∃ before behind, s.cells = before ++ behind ∧ s.clamp offset = before.length := by
  obtain ⟨before, behind, division, place⟩ := exists_division (Text.clamp_le s.size offset)
  exact ⟨before, behind, division, place.symm⟩

/-- The opener of the group around an offset stands before it. -/
theorem enclosing?_lt {s : Snapshot} {offset : Int} {opener : Nat}
    (found : s.enclosing? offset = some opener) : opener < s.clamp offset := by
  obtain ⟨before, cell, inner, split, rfl, -⟩ := OpenGroups.exists_of_enclosingOpener found
  have sizes := congrArg List.length split
  rw [List.length_take, List.length_append, List.length_cons] at sizes
  omega

/-- The start of the element that ends with the cell `last` behind the cells `front`, without its
marks. -/
def bodyStart? (s : Snapshot) (front : List Cell) (last : Cell) : Option Int :=
  if last.kind == .string then (s.stringSpan? front.length).map Span.start
  else if last.opens then none
  else if last.closes then (s.enclosing? front.length).map Int.ofNat
  else some (front.length - (front.reverse.takeWhile Cell.isAtom).length)

/-- A motion back passes over an element and then over its marks. -/
theorem backward?_eq {s : Snapshot} {front after : List Cell} {last : Cell}
    (division : s.cells = front ++ last :: after) (noBlank : last.isBlank = false) :
    s.backward? (front ++ [last]).length = (s.bodyStart? front last).map s.beforeMarks := by
  unfold backward?
  rw [cellsBefore_concat division noBlank]
  simp only [List.length_reverse]
  rfl

/-- An element starts in the text before its last character, or with it. -/
theorem bodyStart?_bounds {text : Text} {front : List Cell} {last : Cell} {start : Int}
    (found : (ofText text).bodyStart? front last = some start) :
    0 ≤ start ∧ start ≤ front.length := by
  rw [bodyStart?] at found
  split at found
  · obtain ⟨span, lookup, rfl⟩ := Option.map_eq_some_iff.mp found
    obtain ⟨member, low, -⟩ := stringSpan?_ofText.mp lookup
    exact ⟨start_nonneg member, low⟩
  · split at found
    · cases found
    · split at found
      · obtain ⟨opener, search, rfl⟩ := Option.map_eq_some_iff.mp found
        have before := enclosing?_lt search
        have clamped : (ofText text).clamp (front.length : Int) ≤ front.length := Nat.min_le_left _ _
        exact ⟨Int.natCast_nonneg _, Int.ofNat_le.mpr (by omega)⟩
      · have fewer := (List.takeWhile_sublist (l := front.reverse) Cell.isAtom).length_le
        rw [List.length_reverse] at fewer
        have same := Option.some.inj found
        omega

end Snapshot

namespace Tables

theorem enclosing_tables (s : Snapshot) (offset : Int) :
    s.tables.enclosing offset = .ok (s.enclosing? offset) := by
  obtain ⟨before, behind, division, place⟩ := s.exists_division_clamp offset
  have found := enclosingFrom_tables division 0
  rw [Int.natCast_zero] at found
  rw [enclosing, clamp_tables, Snapshot.enclosing?, Snapshot.cellsBefore, place, found, division,
    List.take_left]

theorem intoGroup_tables (s : Snapshot) (offset : Int) :
    s.tables.intoGroup offset = .ok (s.intoGroup? offset) := by
  obtain ⟨before, behind, division, place⟩ := s.exists_division_clamp offset
  let plain := fun cell : Cell => !cell.opens && !cell.closes
  have pieces : s.cells = before ++ behind.takeWhile plain ++ behind.dropWhile plain := by
    rw [division, List.append_assoc, List.takeWhile_append_dropWhile]
  rw [intoGroup, clamp_tables, place, skipForward_tables division, ok_bind, Snapshot.intoGroup?,
    place, Snapshot.cellsFrom, division, List.drop_left]
  cases rest : behind.dropWhile plain with
  | nil =>
      rw [rest, List.append_nil] at pieces
      rw [if_neg (not_lt_length_tables pieces)]
  | cons cell after =>
      rw [rest] at pieces
      have size : s.size - after.length = (before ++ behind.takeWhile plain).length + 1 := by
        rw [Snapshot.size, pieces]
        simp only [List.length_append, List.length_cons]
        omega
      rw [if_pos (lt_length_tables pieces), cell_tables pieces, ok_bind]
      simp only [size]
      rfl

/-- **No look-up of a motion forwards fails**, and its answer is that of the motion over cells. -/
theorem forward_tables (text : Text) (offset : Int) :
    (Snapshot.ofText text).tables.forward offset = .ok ((Snapshot.ofText text).forward? offset) := by
  obtain ⟨before, behind, division, place⟩ := (Snapshot.ofText text).exists_division_clamp offset
  obtain ⟨blanks, marks, body, rfl, approach⟩ := Snapshot.exists_approach division
  have toMarks := skipForward_tables division Cell.isBlank
  rw [List.append_assoc blanks, takeWhile_append_eq approach.blank approach.noBlank] at toMarks
  have further : (Snapshot.ofText text).cells = (before ++ blanks) ++ (marks ++ body) := by
    simp [approach.cells_eq]
  have toBody := skipForward_tables further Cell.isMark
  rw [takeWhile_append_eq approach.mark approach.noMark] at toBody
  have more : (before ++ blanks).length < (before ++ blanks ++ marks).length ↔ marks ≠ [] := by
    rw [← List.length_pos_iff]
    simp only [List.length_append]
    omega
  rw [← Snapshot.forward?_clamp, forward, clamp_tables, place, toMarks, ok_bind, toBody, ok_bind]
  simp only [more]
  cases body with
  | nil =>
      have whole := approach.cells_eq
      rw [List.append_nil] at whole
      rw [if_neg (not_lt_length_tables whole), approach.forward?_marks (by simp)]
      by_cases none : marks = [] <;> simp [none]
  | cons cell rest =>
      rw [if_pos (lt_length_tables approach.cells_eq), cell_tables approach.cells_eq, ok_bind]
      by_cases string : cell.kind = .string
      · rw [approach.forward?_string string, if_pos (by simp [string]), spanAt_tables, ok_bind]
        cases (Snapshot.ofText text).stringSpan? (before ++ blanks ++ marks).length with
        | none => rfl
        | some span =>
            simp only [isOpenString_tables, ok_bind, Option.filter_some]
            cases (Snapshot.ofText text).isOpenString span <;> rfl
      · rw [if_neg (by simpa using string)]
        by_cases opens : cell.opens = true
        · rw [if_pos opens, approach.forward?_opens opens, matchForward_opener approach.cells_eq opens,
            ok_bind, Option.map_map]
          rfl
        · rw [if_neg opens, skipForward_tables approach.cells_eq, ok_bind]
          by_cases atom : cell.isAtom = true
          · obtain ⟨others, after, rfl, atoms, ends⟩ := Snapshot.exists_atom atom rest
            have pieces : cell :: (others ++ after) = (cell :: others) ++ after := rfl
            have longer : (before ++ blanks ++ marks ++ (cell :: others)).length ≠
                (before ++ blanks ++ marks).length := by
              simp
            rw [pieces] at approach
            rw [approach.forward?_atom (List.cons_ne_nil _ _) atoms ends, pieces,
              takeWhile_append_eq atoms ends, if_neg longer]
          · have ends : ∀ first ∈ (cell :: rest).head?,
                first.kind ≠ .string ∧ first.opens = false ∧ first.isAtom = false := by
              intro first head
              obtain rfl : cell = first := Option.some.inj head
              exact ⟨string, Bool.eq_false_iff.mpr opens, Bool.eq_false_iff.mpr atom⟩
            rw [approach.forward?_marks ends, List.takeWhile_cons_of_neg atom, List.append_nil,
              if_pos rfl]
            by_cases none : marks = [] <;> simp [none]

/-- Marks before an offset of the text are found without a failure. -/
theorem beforeMarks_tables (s : Snapshot) {offset : Int} (nonneg : 0 ≤ offset)
    (inside : offset ≤ s.size) : s.tables.beforeMarks offset = .ok (s.beforeMarks offset) := by
  obtain ⟨place, rfl⟩ := Int.eq_ofNat_of_zero_le nonneg
  obtain ⟨before, behind, division, rfl⟩ := Snapshot.exists_division (Int.ofNat_le.mp inside)
  have fewer := (List.takeWhile_sublist (l := before.reverse) Cell.isMark).length_le
  rw [List.length_reverse] at fewer
  rw [beforeMarks, Snapshot.beforeMarks, Int.toNat_natCast, skipBackward_tables division, ok_bind,
    Snapshot.cellsBefore, division, List.take_left]
  split
  · rw [Int.ofNat_sub fewer]
  · next none =>
      have empty : before = [] := List.length_eq_zero_iff.mp (by omega)
      rw [empty]
      rfl

theorem bodyStart_tables {s : Snapshot} {front after : List Cell} {last : Cell}
    (division : s.cells = front ++ last :: after) :
    s.tables.bodyStart front.length = .ok (s.bodyStart? front last) := by
  have fewer := (List.takeWhile_sublist (l := front.reverse) Cell.isAtom).length_le
  rw [List.length_reverse] at fewer
  rw [bodyStart, Snapshot.bodyStart?, cell_tables division, ok_bind]
  by_cases string : (last.kind == .string) = true
  · rw [if_pos string, if_pos string, spanAt_tables]
    rfl
  · rw [if_neg string, if_neg string]
    by_cases opens : last.opens = true
    · rw [if_pos opens, if_pos opens]
    · rw [if_neg opens, if_neg opens]
      by_cases closes : last.closes = true
      · rw [if_pos closes, if_pos closes, matchBackward_closer division closes, Snapshot.enclosing?,
          Snapshot.clamp_cells division, Snapshot.cellsBefore, division, List.take_left]
        rfl
      · rw [if_neg closes, if_neg closes, skipBackward_tables division, ok_bind, Int.ofNat_sub fewer]

/-- **No look-up of a motion back fails**, and its answer is that of the motion over cells. -/
theorem backward_tables (text : Text) (offset : Int) :
    (Snapshot.ofText text).tables.backward offset =
      .ok ((Snapshot.ofText text).backward? offset) := by
  obtain ⟨above, after, division, place⟩ := (Snapshot.ofText text).exists_division_clamp offset
  obtain ⟨passed, blanks, rfl, blank, apart⟩ := exists_longest_suffix Cell.isBlank above
  have back := skipBackward_tables division Cell.isBlank
  have taken : (passed ++ blanks).reverse.takeWhile Cell.isBlank = blanks.reverse := by
    rw [List.reverse_append]
    refine takeWhile_append_eq (fun cell member => blank cell (List.mem_reverse.mp member)) ?_
    rw [List.head?_reverse]
    exact apart
  rw [taken, List.length_reverse, List.length_append, Nat.add_sub_cancel] at back
  rw [← Snapshot.backward?_clamp, backward, clamp_tables, place,
    Snapshot.backward?_append_blanks division blank, List.length_append, back, ok_bind]
  rcases List.eq_nil_or_concat passed with rfl | ⟨front, last, rfl⟩
  · rfl
  · rw [List.concat_eq_append] at division apart ⊢
    have ends : (Snapshot.ofText text).cells = front ++ last :: (blanks ++ after) := by
      simp [division]
    have noBlank : last.isBlank = false := apart last (by simp)
    rw [Snapshot.backward?_eq ends noBlank, List.length_append, List.length_singleton]
    simp only [bodyStart_tables ends, ok_bind]
    cases start : (Snapshot.ofText text).bodyStart? front last with
    | none => rfl
    | some place =>
        obtain ⟨nonneg, inside⟩ := Snapshot.bodyStart?_bounds start
        have size : front.length ≤ (Snapshot.ofText text).size := by
          rw [Snapshot.size, ends, List.length_append]
          exact Nat.le_add_right _ _
        simp only [beforeMarks_tables (Snapshot.ofText text) nonneg (by omega), ok_bind]
        rfl

end Tables

end LispEditor
