import LispEditor.Motion.Element
import LispEditor.Proofs.GroupStack
import LispEditor.Proofs.StringSpans

/-!
# What a motion passes over

A motion forwards passes over blanks, then over marks, and then over one string, group or atom.
`Approach` divides the cells of a snapshot accordingly and `Passes` says what may stand at the end
of it, so that a motion is described without counting offsets.

* `Approach.forward?_string`, `forward?_opens`, `forward?_atom`, `forward?_marks`: where a motion
  forwards ends, by what it meets.
* `Approach.passes_of_forward?`: what a motion that ends somewhere has passed over.
* `Approach.backward?_forward?`: a motion back from there ends behind the blanks, if what stands before
  them is no part of an atom.
-/

namespace LispEditor

/-! ### The roles of cells exclude each other -/

namespace Cell

variable {cell : Cell}

theorem isCode_of_opens (opens : cell.opens = true) : cell.isCode = true :=
  (Bool.and_eq_true_iff.mp opens).1

theorem isCode_of_closes (closes : cell.closes = true) : cell.isCode = true :=
  (Bool.and_eq_true_iff.mp closes).1

theorem kind_of_isCode (code : cell.isCode = true) : cell.kind = .code :=
  beq_iff_eq.mp code

/-- A mark is part of an atom, if one stands before it. -/
theorem isAtom_of_isMark (mark : cell.isMark = true) : cell.isAtom = true := by
  obtain ⟨char, kind⟩ := cell
  simp only [isMark, LispEditor.isMark, Bool.and_eq_true, List.mem_cons, List.not_mem_nil, or_false,
    decide_eq_true_eq] at mark
  obtain ⟨code, quote | quasi | unquote | at' | meta' | hash⟩ := mark
  all_goals simp_all [isAtom, isSeparator, isOpener, isCloser]

theorem isMark_of_not_isAtom (other : cell.isAtom = false) : cell.isMark = false :=
  Bool.eq_false_iff.mpr fun mark => by simp [isAtom_of_isMark mark] at other

theorem isBlank_of_isAtom (atom : cell.isAtom = true) : cell.isBlank = false := by
  obtain ⟨char, kind⟩ := cell
  cases kind <;> simp_all [isAtom, isBlank, isCode]

theorem opens_of_isAtom (atom : cell.isAtom = true) : cell.opens = false := by
  obtain ⟨char, kind⟩ := cell
  cases kind <;> simp_all [isAtom, opens, isCode]

theorem closes_of_isAtom (atom : cell.isAtom = true) : cell.closes = false := by
  obtain ⟨char, kind⟩ := cell
  cases kind <;> simp_all [isAtom, closes, isCode]

theorem kind_of_isAtom (atom : cell.isAtom = true) : cell.kind ≠ .string := by
  obtain ⟨char, kind⟩ := cell
  cases kind <;> simp_all [isAtom, isCode]

theorem isAtom_of_opens (opens : cell.opens = true) : cell.isAtom = false := by
  obtain ⟨char, kind⟩ := cell
  cases kind <;> simp_all [isAtom, Cell.opens, isCode]

theorem isBlank_of_opens (opens : cell.opens = true) : cell.isBlank = false := by
  obtain ⟨char, kind⟩ := cell
  simp only [Cell.opens, Bool.and_eq_true, isOpener, List.mem_cons, List.not_mem_nil, or_false,
    decide_eq_true_eq] at opens
  obtain ⟨code, round | square | curly⟩ := opens
  all_goals simp_all [isBlank, isSeparator, isCode]

theorem isBlank_of_closes (closes : cell.closes = true) : cell.isBlank = false := by
  obtain ⟨char, kind⟩ := cell
  simp only [Cell.closes, Bool.and_eq_true, isCloser, List.mem_cons, List.not_mem_nil, or_false,
    decide_eq_true_eq] at closes
  obtain ⟨code, round | square | curly⟩ := closes
  all_goals simp_all [isBlank, isSeparator, isCode]

theorem opens_of_isBlank (blank : cell.isBlank = true) : cell.opens = false :=
  Bool.eq_false_iff.mpr fun opens => by simp [isBlank_of_opens opens] at blank

theorem closes_of_isBlank (blank : cell.isBlank = true) : cell.closes = false :=
  Bool.eq_false_iff.mpr fun closes => by simp [isBlank_of_closes closes] at blank

theorem isBlank_of_kind (string : cell.kind = .string) : cell.isBlank = false := by
  simp [isBlank, isCode, string]

/-- Every cell plays one of the five roles. -/
theorem role_cases (cell : Cell) :
    cell.isBlank = true ∨ cell.kind = .string ∨ cell.opens = true ∨ cell.closes = true ∨
      cell.isAtom = true := by
  obtain ⟨char, kind⟩ := cell
  cases kind with
  | code =>
      cases separator : isSeparator char <;> cases opener : isOpener char <;>
        cases closer : isCloser char <;>
        simp [isBlank, opens, closes, isAtom, isCode, separator, opener, closer]
  | string => simp
  | comment => simp [isBlank]
  | literal => simp [isAtom]

end Cell

namespace Snapshot

/-! ### Strings of a text -/

theorem stringSpan?_ofText {text : Text} {offset : Int} {span : Span} :
    (ofText text).stringSpan? offset = some span ↔
      span ∈ (ofText text).strings ∧ span.start ≤ offset ∧ offset < span.stop :=
  stringSpan?_eq_some_iff (ordered_scan text false) (valid_scan text false)

theorem start_nonneg {text : Text} {span : Span} (member : span ∈ (ofText text).strings) :
    0 ≤ span.start :=
  (within_scan member).1

theorem stop_le_size {text : Text} {span : Span} (member : span ∈ (ofText text).strings) :
    span.stop ≤ (ofText text).size := by
  rw [ofText, size_scan]
  exact (within_scan member).2.2

theorem kind_of_mem_strings {text : Text} {span : Span} (member : span ∈ (ofText text).strings)
    {offset : Nat} (low : span.start ≤ offset) (high : offset < span.stop) :
    ((ofText text).cells[offset]?).map Cell.kind = some .string := by
  rw [ofText_eq_snapshot] at member ⊢
  exact Mode.kind_of_mem_spans (Nat.le_refl 0) member (by omega) (by omega)

/-- Every character of kind string lies in a string. -/
theorem exists_stringSpan? {text : Text} {offset : Nat}
    (string : ((ofText text).cells[offset]?).map Cell.kind = some .string) :
    ∃ span, (ofText text).stringSpan? offset = some span := by
  have strings : (ofText text).strings = Mode.code.spans 0 0 text := by rw [ofText_eq_snapshot]; rfl
  rw [ofText_eq_snapshot] at string
  obtain ⟨span, member, low, high⟩ := Mode.exists_span_of_kind (Nat.le_refl 0) string
  rw [← strings] at member
  exact ⟨span, stringSpan?_ofText.mpr ⟨member, by omega, by omega⟩⟩

/-- A string that an offset outside strings lies in begins there. -/
theorem start_eq_of_outside {text : Text} {offset : Nat} {span : Span}
    (lookup : (ofText text).stringSpan? offset = some span)
    (outside : (ofText text).inString offset = false) : span.start = offset := by
  obtain ⟨member, low, high⟩ := stringSpan?_ofText.mp lookup
  have nonneg := start_nonneg member
  have inside := stop_le_size member
  rcases Int.lt_or_eq_of_le low with early | same
  · obtain ⟨last, rfl⟩ := Nat.exists_eq_succ_of_ne_zero (by omega : offset ≠ 0)
    have here : (ofText text).clamp ((last + 1 : Nat) : Int) = last + 1 :=
      Text.clamp_natCast_of_le (by omega)
    have before : (ofText text).stringSpan? last = some span :=
      stringSpan?_ofText.mpr ⟨member, by omega, by omega⟩
    unfold inString at outside
    rw [here] at outside
    simp only [before, Bool.and_eq_false_iff, Bool.or_eq_false_iff, decide_eq_false_iff_not]
      at outside
    omega
  · exact same

/-- The offset behind some of the cells lies in the snapshot. -/
theorem clamp_cells {s : Snapshot} {front behind : List Cell} (division : s.cells = front ++ behind) :
    s.clamp (front.length : Int) = front.length := by
  refine Text.clamp_natCast_of_le ?_
  rw [size, division]
  exact (List.sublist_append_left front behind).length_le

/-! ### Up to an element -/

/-- The cells of a snapshot, divided where a motion begins and behind the blanks and the marks that
it meets. -/
structure Approach (s : Snapshot) (before blanks marks body : List Cell) : Prop where
  cells_eq : s.cells = before ++ blanks ++ marks ++ body
  blank : ∀ cell ∈ blanks, cell.isBlank = true
  noBlank : ∀ cell ∈ (marks ++ body).head?, cell.isBlank = false
  mark : ∀ cell ∈ marks, cell.isMark = true
  noMark : ∀ cell ∈ body.head?, cell.isMark = false

theorem balanced_of_isBlank {blanks : List Cell} (blank : ∀ cell ∈ blanks, cell.isBlank = true) :
    OpenGroups.Balanced blanks :=
  OpenGroups.balanced_of_no_brackets fun cell member =>
    ⟨Cell.opens_of_isBlank (blank cell member), Cell.closes_of_isBlank (blank cell member)⟩

theorem balanced_of_isAtom {atoms : List Cell} (atom : ∀ cell ∈ atoms, cell.isAtom = true) :
    OpenGroups.Balanced atoms :=
  OpenGroups.balanced_of_no_brackets fun cell member =>
    ⟨Cell.opens_of_isAtom (atom cell member), Cell.closes_of_isAtom (atom cell member)⟩

theorem balanced_of_isMark {marks : List Cell} (mark : ∀ cell ∈ marks, cell.isMark = true) :
    OpenGroups.Balanced marks :=
  balanced_of_isAtom fun cell member => Cell.isAtom_of_isMark (mark cell member)

/-- Up to an element no group is entered or left. -/
theorem Approach.balanced {s : Snapshot} {before blanks marks body : List Cell}
    (approach : s.Approach before blanks marks body) : OpenGroups.Balanced (blanks ++ marks) :=
  (balanced_of_isBlank approach.blank).append (balanced_of_isMark approach.mark)

/-- A motion may begin anywhere. -/
theorem exists_approach {s : Snapshot} {before behind : List Cell}
    (cells_eq : s.cells = before ++ behind) :
    ∃ blanks marks body, behind = blanks ++ marks ++ body ∧
      s.Approach before blanks marks body := by
  let element := behind.dropWhile Cell.isBlank
  have first : behind.takeWhile Cell.isBlank ++ element = behind :=
    List.takeWhile_append_dropWhile
  have second : element.takeWhile Cell.isMark ++ element.dropWhile Cell.isMark = element :=
    List.takeWhile_append_dropWhile
  have pieces : behind = behind.takeWhile Cell.isBlank ++ element.takeWhile Cell.isMark ++
      element.dropWhile Cell.isMark := by
    rw [List.append_assoc, second, first]
  refine ⟨_, _, _, pieces, ⟨?_, fun cell => List.mem_takeWhile_imp, ?_,
    fun cell => List.mem_takeWhile_imp, ?_⟩⟩
  · rw [cells_eq, List.append_assoc, second, List.append_assoc, first]
  · intro cell head
    rw [second] at head
    exact eq_false_of_mem_head?_dropWhile head
  · intro cell head
    exact eq_false_of_mem_head?_dropWhile head

/-! ### Over an element -/

section Forward

variable {s : Snapshot} {before blanks marks body : List Cell}

namespace Approach

theorem size_eq (approach : s.Approach before blanks marks body) :
    s.size = (before ++ blanks ++ marks).length + body.length := by
  rw [size, approach.cells_eq, List.length_append]

theorem dropWhile_isBlank (approach : s.Approach before blanks marks body) :
    (s.cellsFrom (s.clamp before.length)).dropWhile Cell.isBlank = marks ++ body := by
  have division : s.cells = before ++ (blanks ++ (marks ++ body)) := by simp [approach.cells_eq]
  rw [clamp_cells division, cellsFrom, division, List.drop_left]
  exact dropWhile_append_eq approach.blank approach.noBlank

theorem dropWhile_isMark (approach : s.Approach before blanks marks body) :
    (marks ++ body).dropWhile Cell.isMark = body :=
  dropWhile_append_eq approach.mark approach.noMark

theorem size_sub (approach : s.Approach before blanks marks body) :
    s.size - body.length = (before ++ blanks ++ marks).length := by
  rw [approach.size_eq]
  omega

/-- A motion that meets a string ends behind it, if it is closed. -/
theorem forward?_string {cell : Cell} {rest : List Cell}
    (approach : s.Approach before blanks marks (cell :: rest)) (string : cell.kind = .string) :
    s.forward? before.length =
      ((s.stringSpan? (before ++ blanks ++ marks).length).filter
        fun span => !s.isOpenString span).map Span.stop := by
  unfold forward?
  simp only [approach.dropWhile_isBlank, approach.dropWhile_isMark, approach.size_sub, string,
    beq_self_eq_true, if_true]

/-- A motion that meets a group ends behind its closer, if there is one. -/
theorem forward?_opens {cell : Cell} {rest : List Cell}
    (approach : s.Approach before blanks marks (cell :: rest)) (opens : cell.opens = true) :
    s.forward? before.length =
      (enclosingCloser 0 rest).map fun left => ((s.size - left : Nat) : Int) := by
  have notString : (cell.kind == .string) = false := by
    rw [Cell.kind_of_isCode (Cell.isCode_of_opens opens)]
    rfl
  have behind : s.cellsFrom ((before ++ blanks ++ marks).length + 1) = rest := by
    have divided : s.cells = before ++ blanks ++ marks ++ [cell] ++ rest := by
      rw [approach.cells_eq, List.append_assoc _ [cell], List.singleton_append]
    have place : (before ++ blanks ++ marks).length + 1 =
        (before ++ blanks ++ marks ++ [cell]).length := by
      simp only [List.length_append, List.length_singleton]
    rw [cellsFrom, divided, place, List.drop_left]
  unfold forward?
  simp only [approach.dropWhile_isBlank, approach.dropWhile_isMark, approach.size_sub, notString,
    opens, if_true, Bool.false_eq_true, if_false, groupEnd?, behind, Option.map_map]
  rfl

/-- A motion that meets an atom ends behind all of it. -/
theorem forward?_atom {atom after : List Cell}
    (approach : s.Approach before blanks marks (atom ++ after)) (nonempty : atom ≠ [])
    (atoms : ∀ cell ∈ atom, cell.isAtom = true) (ends : ∀ cell ∈ after.head?, cell.isAtom = false) :
    s.forward? before.length = some ((before ++ blanks ++ marks ++ atom).length : Int) := by
  obtain ⟨first, rest, rfl⟩ := List.exists_cons_of_ne_nil nonempty
  have isAtom := atoms first List.mem_cons_self
  have notString : (first.kind == .string) = false :=
    beq_eq_false_iff_ne.mpr (Cell.kind_of_isAtom isAtom)
  have whole := takeWhile_append_eq atoms ends
  rw [List.cons_append] at approach whole
  unfold forward?
  simp only [approach.dropWhile_isBlank, approach.dropWhile_isMark, approach.size_sub, notString,
    Cell.opens_of_isAtom isAtom, Bool.false_eq_true, if_false, whole, Option.some.injEq]
  simp only [List.length_append]
  omega

/-- A motion that meets no element ends behind the marks, if there are any. -/
theorem forward?_marks (approach : s.Approach before blanks marks body)
    (ends : ∀ cell ∈ body.head?,
      cell.kind ≠ .string ∧ cell.opens = false ∧ cell.isAtom = false) :
    s.forward? before.length =
      if marks = [] then none else some ((before ++ blanks ++ marks).length : Int) := by
  have more : body.length < (marks ++ body).length ↔ marks ≠ [] := by
    rw [List.length_append, ← List.length_pos_iff]
    omega
  unfold forward?
  simp only [approach.dropWhile_isBlank, approach.dropWhile_isMark, approach.size_sub, more]
  cases body with
  | nil => simp
  | cons cell rest =>
      obtain ⟨notString, notOpener, notAtom⟩ := ends cell rfl
      simp [notString, notOpener, notAtom]

end Approach

end Forward

/-- The atom that begins with a cell. -/
theorem exists_atom {cell : Cell} (atom : cell.isAtom = true) (rest : List Cell) :
    ∃ others after, rest = others ++ after ∧ (∀ c ∈ cell :: others, c.isAtom = true) ∧
      ∀ c ∈ after.head?, c.isAtom = false := by
  refine ⟨rest.takeWhile Cell.isAtom, rest.dropWhile Cell.isAtom,
    List.takeWhile_append_dropWhile.symm, ?_, fun c => eq_false_of_mem_head?_dropWhile⟩
  intro c member
  rcases List.mem_cons.mp member with rfl | later
  · exact atom
  · exact List.mem_takeWhile_imp later

/-- What a motion passes over behind the cells `before` and the marks `marks`, and what it leaves. -/
inductive Passes (s : Snapshot) (before marks : List Cell) : List Cell → List Cell → Prop where
  | string {first : Cell} {rest after : List Cell} {span : Span} (kind : first.kind = .string)
      (found : s.stringSpan? (before ++ marks).length = some span)
      (closed : s.isOpenString span = false)
      (stop : span.stop = (before ++ marks ++ first :: rest).length) :
      Passes s before marks (first :: rest) after
  | group {opener closer : Cell} {inner after : List Cell} (opens : opener.opens = true)
      (balanced : OpenGroups.Balanced inner) (closes : closer.closes = true) :
      Passes s before marks (opener :: inner ++ [closer]) after
  | atom {first : Cell} {rest after : List Cell}
      (atoms : ∀ cell ∈ first :: rest, cell.isAtom = true)
      (ends : ∀ cell ∈ after.head?, cell.isAtom = false) :
      Passes s before marks (first :: rest) after
  | marks {after : List Cell} (marked : marks ≠ [])
      (ends : ∀ cell ∈ after.head?,
        cell.kind ≠ .string ∧ cell.opens = false ∧ cell.isAtom = false) :
      Passes s before marks [] after

/-- **A motion that ends somewhere has passed over a string, a group, an atom or marks.** -/
theorem Approach.passes_of_forward? {text : Text} {before blanks marks body : List Cell}
    (approach : (ofText text).Approach before blanks marks body) {stop : Int}
    (found : (ofText text).forward? before.length = some stop) :
    ∃ element after, body = element ++ after ∧
      stop = (before ++ blanks ++ marks ++ element).length ∧
      (ofText text).Passes (before ++ blanks) marks element after := by
  have noElement (ends : ∀ cell ∈ body.head?,
      cell.kind ≠ .string ∧ cell.opens = false ∧ cell.isAtom = false) :
      ∃ element after, body = element ++ after ∧
        stop = (before ++ blanks ++ marks ++ element).length ∧
        (ofText text).Passes (before ++ blanks) marks element after := by
    rw [approach.forward?_marks ends] at found
    split at found
    · cases found
    · next marked =>
        refine ⟨[], body, rfl, ?_, .marks marked ends⟩
        rw [List.append_nil]
        exact (Option.some.inj found).symm
  cases body with
  | nil => exact noElement fun cell head => nomatch head
  | cons cell rest =>
      by_cases string : cell.kind = .string
      · rw [approach.forward?_string string] at found
        obtain ⟨span, kept, rfl⟩ := Option.map_eq_some_iff.mp found
        obtain ⟨lookup, closed⟩ := Option.filter_eq_some_iff.mp kept
        obtain ⟨member, -, below⟩ := stringSpan?_ofText.mp lookup
        have inside : span.stop ≤ (ofText text).size := stop_le_size member
        have size := approach.size_eq
        rw [List.length_cons] at size
        have enough : span.stop.toNat - (before ++ blanks ++ marks).length - 1 ≤ rest.length := by
          omega
        refine ⟨cell :: rest.take (span.stop.toNat - (before ++ blanks ++ marks).length - 1),
          rest.drop (span.stop.toNat - (before ++ blanks ++ marks).length - 1), ?_, ?_,
          .string string lookup (by simpa using closed) ?_⟩
        · rw [List.cons_append, List.take_append_drop]
        · rw [List.length_append, List.length_cons, List.length_take, Nat.min_eq_left enough]
          omega
        · rw [List.length_append, List.length_cons, List.length_take, Nat.min_eq_left enough]
          omega
      · by_cases opens : cell.opens = true
        · rw [approach.forward?_opens opens] at found
          obtain ⟨left, search, rfl⟩ := Option.map_eq_some_iff.mp found
          obtain ⟨inner, closer, after, rfl, rfl, closes, balanced⟩ :=
            OpenGroups.stepCells_of_enclosingCloser search
          refine ⟨cell :: inner ++ [closer], after, by simp, ?_, .group opens balanced closes⟩
          rw [approach.size_eq]
          simp only [List.length_append, List.length_cons, List.length_nil]
          omega
        · by_cases atom : cell.isAtom = true
          · obtain ⟨others, after, rfl, atoms, ends⟩ := exists_atom atom rest
            have pieces : cell :: (others ++ after) = (cell :: others) ++ after := rfl
            rw [pieces] at approach
            rw [approach.forward?_atom (List.cons_ne_nil _ _) atoms ends] at found
            exact ⟨_, _, pieces, (Option.some.inj found).symm, .atom atoms ends⟩
          · refine noElement fun first head => ?_
            obtain rfl : cell = first := Option.some.inj head
            exact ⟨string, Bool.eq_false_iff.mpr opens, Bool.eq_false_iff.mpr atom⟩

/-! ### Back over an element -/

section Backward

variable {s : Snapshot} {before marks element after : List Cell}

/-- Marks in front of an element are passed over, up to a cell that is none. -/
theorem beforeMarks_append (division : s.cells = before ++ marks ++ after)
    (mark : ∀ cell ∈ marks, cell.isMark = true)
    (noMark : ∀ cell ∈ before.getLast?, cell.isMark = false) :
    s.beforeMarks (before ++ marks).length = before.length := by
  have reversed : s.cellsBefore (before ++ marks).length = marks.reverse ++ before.reverse := by
    rw [cellsBefore, division, List.take_left, List.reverse_append]
  have passed : (marks.reverse ++ before.reverse).takeWhile Cell.isMark = marks.reverse := by
    refine takeWhile_append_eq (fun cell member => mark cell (List.mem_reverse.mp member)) ?_
    rw [List.head?_reverse]
    exact noMark
  rw [beforeMarks, Int.toNat_natCast, reversed, passed, List.length_reverse, List.length_append]
  omega

/-- The cells that a motion back from behind `last` looks at. -/
theorem cellsBefore_concat {front : List Cell} {last : Cell}
    (division : s.cells = front ++ last :: after) (noBlank : last.isBlank = false) :
    (s.cellsBefore (s.clamp ((front ++ [last]).length : Int))).dropWhile Cell.isBlank =
      last :: front.reverse := by
  have whole : s.cells = front ++ [last] ++ after := by simp [division]
  rw [clamp_cells whole, cellsBefore, whole, List.take_left, List.reverse_append]
  exact List.dropWhile_cons_of_neg (by simp [noBlank])

/-- A motion back from behind atom cells ends where they begin. -/
theorem backward?_atoms {atoms : List Cell} (division : s.cells = before ++ atoms ++ after)
    (nonempty : atoms ≠ []) (all : ∀ cell ∈ atoms, cell.isAtom = true)
    (apart : ∀ cell ∈ before.getLast?, cell.isAtom = false) :
    s.backward? (before ++ atoms).length = some (before.length : Int) := by
  obtain ⟨inner, last, rfl⟩ : ∃ inner last, atoms = inner ++ [last] :=
    ⟨_, _, (List.dropLast_concat_getLast nonempty).symm⟩
  have isAtom : last.isAtom = true := all last (by simp)
  have ends : s.cells = (before ++ inner) ++ last :: after := by simp [division]
  have notString : (last.kind == .string) = false :=
    beq_eq_false_iff_ne.mpr (Cell.kind_of_isAtom isAtom)
  have passed : ((before ++ inner).reverse).takeWhile Cell.isAtom = inner.reverse := by
    rw [List.reverse_append]
    refine takeWhile_append_eq (fun cell member => all cell ?_) ?_
    · exact List.mem_append_left _ (List.mem_reverse.mp member)
    · rw [List.head?_reverse]
      exact apart
  have noMark : ∀ cell ∈ before.getLast?, cell.isMark = false :=
    fun cell member => Cell.isMark_of_not_isAtom (apart cell member)
  have unmarked : s.cells = before ++ [] ++ (inner ++ last :: after) := by simp [division]
  have start : s.beforeMarks (before ++ []).length = before.length :=
    beforeMarks_append unmarked (fun cell member => nomatch member) noMark
  rw [← List.append_assoc]
  unfold backward?
  rw [cellsBefore_concat ends (Cell.isBlank_of_isAtom isAtom)]
  simp only [notString, Cell.opens_of_isAtom isAtom, Cell.closes_of_isAtom isAtom,
    Bool.false_eq_true, if_false, passed, List.length_reverse, Option.map_some, Option.some.injEq]
  rw [List.append_nil] at start
  rw [← start]
  congr 1
  simp only [List.length_append]
  omega

/-- A motion back from behind a closer ends before the marks of the group that it closes. -/
theorem backward?_group {opener closer : Cell} {inner : List Cell}
    (division : s.cells = before ++ marks ++ (opener :: inner ++ [closer]) ++ after)
    (opens : opener.opens = true) (balanced : OpenGroups.Balanced inner)
    (closes : closer.closes = true) (mark : ∀ cell ∈ marks, cell.isMark = true)
    (noMark : ∀ cell ∈ before.getLast?, cell.isMark = false) :
    s.backward? (before ++ marks ++ (opener :: inner ++ [closer])).length =
      some (before.length : Int) := by
  have ends : s.cells = (before ++ marks ++ opener :: inner) ++ closer :: after := by
    simp [division]
  have begins : s.cells = before ++ marks ++ (opener :: inner ++ closer :: after) := by
    simp [division]
  have group : s.enclosing? (before ++ marks ++ opener :: inner).length =
      some (before ++ marks).length := by
    rw [enclosing?, clamp_cells ends, cellsBefore, ends, List.take_left,
      OpenGroups.enclosingOpener_reverse, OpenGroups.stepCells_append, OpenGroups.stepCells,
      balanced, OpenGroups.stepCell, if_pos opens, Nat.zero_add]
    rfl
  have notString : (closer.kind == .string) = false := by
    rw [Cell.kind_of_isCode (Cell.isCode_of_closes closes)]
    rfl
  have notOpener : closer.opens = false :=
    Bool.eq_false_iff.mpr fun both => by simp [Cell.closes_of_opens both] at closes
  have regroup : before ++ marks ++ (opener :: inner ++ [closer]) =
      (before ++ marks ++ opener :: inner) ++ [closer] := by simp
  rw [regroup]
  unfold backward?
  rw [cellsBefore_concat ends (Cell.isBlank_of_closes closes)]
  simp only [notString, notOpener, closes, Bool.false_eq_true, if_false, if_true,
    List.length_reverse, group, Option.map_some, Option.some.injEq]
  exact beforeMarks_append begins mark noMark

/-- A motion back from behind a closed string ends before its marks. -/
theorem backward?_string {text : Text} {first : Cell} {rest : List Cell} {span : Span}
    (division : (ofText text).cells = before ++ marks ++ first :: rest ++ after)
    (member : span ∈ (ofText text).strings) (start : span.start = (before ++ marks).length)
    (stop : span.stop = (before ++ marks ++ first :: rest).length)
    (mark : ∀ cell ∈ marks, cell.isMark = true)
    (noMark : ∀ cell ∈ before.getLast?, cell.isMark = false) :
    (ofText text).backward? (before ++ marks ++ first :: rest).length =
      some (before.length : Int) := by
  obtain ⟨inner, last, split⟩ : ∃ inner last, first :: rest = inner ++ [last] :=
    ⟨_, _, (List.dropLast_concat_getLast (List.cons_ne_nil first rest)).symm⟩
  rw [split] at division stop ⊢
  have ends : (ofText text).cells = (before ++ marks ++ inner) ++ last :: after := by
    simp [division]
  have begins : (ofText text).cells = before ++ marks ++ (inner ++ last :: after) := by
    simp [division]
  have low : span.start ≤ ((before ++ marks ++ inner).length : Int) := by
    rw [start]
    exact Int.ofNat_le.mpr (List.sublist_append_left _ inner).length_le
  have high : ((before ++ marks ++ inner).length : Int) < span.stop := by
    rw [stop]
    simp only [List.length_append, List.length_singleton]
    omega
  have string : last.kind = .string := by
    have here : (ofText text).cells[(before ++ marks ++ inner).length]? = some last := by
      rw [ends, List.getElem?_append_right (Nat.le_refl _), Nat.sub_self, List.getElem?_cons_zero]
    have kind := kind_of_mem_strings member low high
    rw [here] at kind
    exact Option.some.inj kind
  have lookup := stringSpan?_ofText.mpr ⟨member, low, high⟩
  rw [← List.append_assoc]
  unfold backward?
  rw [cellsBefore_concat ends (Cell.isBlank_of_kind string)]
  simp only [string, beq_self_eq_true, if_true, List.length_reverse, lookup, start, Option.map_some,
    Option.some.injEq]
  exact beforeMarks_append begins mark noMark

end Backward

/-- **A motion back undoes a motion forwards**: from where a motion forwards ends, a motion back ends
behind the blanks that the first one passed over. -/
theorem Approach.backward?_forward? {text : Text} {before blanks marks body : List Cell}
    (approach : (ofText text).Approach before blanks marks body)
    (apart : ∀ cell ∈ (before ++ blanks).getLast?, cell.isAtom = false)
    (outside : (ofText text).inString (before ++ blanks ++ marks).length = false) {stop : Int}
    (found : (ofText text).forward? before.length = some stop) :
    (ofText text).backward? stop = some ((before ++ blanks).length : Int) := by
  have noMark : ∀ cell ∈ (before ++ blanks).getLast?, cell.isMark = false :=
    fun cell member => Cell.isMark_of_not_isAtom (apart cell member)
  obtain ⟨element, after, rfl, rfl, passes⟩ := approach.passes_of_forward? found
  have division := approach.cells_eq
  rw [← List.append_assoc] at division
  cases passes with
  | string kind lookup closed stop =>
      have start := start_eq_of_outside lookup outside
      exact backward?_string division (stringSpan?_ofText.mp lookup).1 start stop approach.mark noMark
  | group opens balanced closes =>
      exact backward?_group division opens balanced closes approach.mark noMark
  | @atom first rest _ atoms ends =>
      -- The marks in front are passed over as part of the atom.
      have all : ∀ cell ∈ marks ++ first :: rest, cell.isAtom = true := by
        intro cell member
        rcases List.mem_append.mp member with mark | later
        · exact Cell.isAtom_of_isMark (approach.mark cell mark)
        · exact atoms cell later
      have nonempty : marks ++ first :: rest ≠ [] := by simp
      rw [List.append_assoc (before ++ blanks)] at division ⊢
      exact backward?_atoms division nonempty all apart
  | marks marked ends =>
      have all : ∀ cell ∈ marks, cell.isAtom = true :=
        fun cell member => Cell.isAtom_of_isMark (approach.mark cell member)
      rw [List.append_nil] at division ⊢
      exact backward?_atoms division marked all apart

end Snapshot

end LispEditor
