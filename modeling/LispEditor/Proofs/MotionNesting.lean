import LispEditor.Proofs.MotionLookup

/-!
# Motions keep to their group

What a motion over an element passes over opens and closes the same groups, whatever else is wrong with
the brackets of the text. So it stays in its group, and it gets on. A motion into a group comes to be
just behind an opener, and the group around an offset is not left behind before that offset.

* `Level`: between two offsets no group around them is opened or closed.
* `level_of_forward?`, `level_of_backward?`: what motions over elements pass over.
* `exists_of_intoGroup?`: what a motion into a group passes over.
* `lt_of_forward?_enclosing`: a group ends behind every offset that it is around.
* `motions_nest`: all of it, for every text and offset, with no look-up that fails.
-/

namespace LispEditor

open OpenGroups (Balanced stepCells)

namespace Snapshot

/-! ### Levels -/

/-- The cells between two offsets leave every stack of open groups as it was. -/
inductive Level (s : Snapshot) : Nat → Nat → Prop where
  | cells {before passed after : List Cell} (division : s.cells = before ++ passed ++ after)
      (balanced : Balanced passed) : Level s before.length (before ++ passed).length

theorem enclosing?_of_cells {s : Snapshot} {before after : List Cell}
    (division : s.cells = before ++ after) :
    s.enclosing? before.length = (stepCells [] 0 before).head? := by
  rw [enclosing?, clamp_cells division, cellsBefore, division, List.take_left,
    OpenGroups.enclosingOpener_reverse, List.head?_eq_getElem?]

/-- Offsets on one level lie in the same group. -/
theorem Level.enclosing?_eq {s : Snapshot} {start stop : Nat} (level : s.Level start stop) :
    s.enclosing? stop = s.enclosing? start := by
  obtain @⟨before, passed, after, division, balanced⟩ := level
  have shorter : s.cells = before ++ (passed ++ after) := by rw [division, List.append_assoc]
  rw [enclosing?_of_cells division, enclosing?_of_cells shorter, OpenGroups.stepCells_append, balanced]

theorem Level.le_size {s : Snapshot} {start stop : Nat} (level : s.Level start stop) :
    stop ≤ s.size := by
  obtain @⟨before, passed, after, division, -⟩ := level
  rw [size, division]
  exact (List.sublist_append_left _ _).length_le

/-- Brackets in a string are none. -/
theorem balanced_of_string {text : Text} {before piece after : List Cell} {span : Span}
    (division : (ofText text).cells = before ++ piece ++ after)
    (member : span ∈ (ofText text).strings) (low : span.start ≤ before.length)
    (high : ((before ++ piece).length : Int) ≤ span.stop) : Balanced piece := by
  refine OpenGroups.balanced_of_no_brackets fun cell inPiece => ?_
  obtain ⟨i, inside, rfl⟩ := List.mem_iff_getElem.mp inPiece
  rw [List.length_append] at high
  have kind := kind_of_mem_strings member (show span.start ≤ ((before.length + i : Nat) : Int) by omega)
    (by omega)
  have here : (ofText text).cells[before.length + i]? = some piece[i] := by
    rw [division, List.append_assoc, List.getElem?_append_right (Nat.le_add_right _ _),
      Nat.add_sub_cancel_left, List.getElem?_append_left inside, List.getElem?_eq_getElem inside]
  rw [here] at kind
  have string : piece[i].kind = .string := Option.some.inj kind
  simp [Cell.opens, Cell.closes, Cell.isCode, string]

/-! ### Over an element -/

/-- What a motion forwards passes over is level, and there is some of it. -/
theorem Passes.balanced {text : Text} {before marks element after : List Cell}
    (passes : (ofText text).Passes before marks element after)
    (division : (ofText text).cells = before ++ marks ++ element ++ after) :
    Balanced element ∧ marks ++ element ≠ [] := by
  cases passes with
  | string kind found closed stop =>
      obtain ⟨member, low, -⟩ := stringSpan?_ofText.mp found
      exact ⟨balanced_of_string division member low (Int.le_of_eq stop.symm), by simp⟩
  | group opens balanced closes => exact ⟨balanced.group opens closes, by simp⟩
  | atom atoms ends => exact ⟨balanced_of_isAtom atoms, by simp⟩
  | marks marked ends => exact ⟨fun _ _ => rfl, by simpa using marked⟩

/-- **A motion forwards goes on, on its level.** -/
theorem level_of_forward? {text : Text} {offset stop : Int}
    (found : (ofText text).forward? offset = some stop) :
    ∃ place : Nat, stop = place ∧ (ofText text).clamp offset < place ∧
      (ofText text).Level ((ofText text).clamp offset) place := by
  obtain ⟨before, behind, division, place⟩ := (ofText text).exists_division_clamp offset
  obtain ⟨blanks, marks, body, rfl, approach⟩ := exists_approach division
  rw [← forward?_clamp, place] at found
  obtain ⟨element, after, rfl, rfl, passes⟩ := approach.passes_of_forward? found
  have pieces : (ofText text).cells = before ++ blanks ++ marks ++ element ++ after := by
    simp [approach.cells_eq]
  have whole : (ofText text).cells = before ++ (blanks ++ marks ++ element) ++ after := by
    simp [approach.cells_eq]
  obtain ⟨balanced, some⟩ := passes.balanced pieces
  have level : Balanced (blanks ++ marks ++ element) := approach.balanced.append balanced
  have longer := List.length_pos_iff.mpr some
  refine ⟨_, rfl, ?_, ?_⟩
  · rw [place]
    simp only [List.length_append] at longer ⊢
    omega
  · have reached := Level.cells whole level
    simp only [← List.append_assoc] at reached
    rw [place]
    exact reached

/-- The element that a motion back meets, without its marks. -/
theorem exists_of_bodyStart? {text : Text} {front after : List Cell} {last : Cell} {start : Int}
    (division : (ofText text).cells = front ++ last :: after) (noBlank : last.isBlank = false)
    (found : (ofText text).bodyStart? front last = some start) :
    ∃ outer element, front = outer ++ element ∧ start = outer.length ∧
      Balanced (element ++ [last]) := by
  rw [bodyStart?] at found
  by_cases string : last.kind = .string
  · rw [if_pos (by simp [string])] at found
    obtain ⟨span, lookup, rfl⟩ := Option.map_eq_some_iff.mp found
    obtain ⟨member, low, high⟩ := stringSpan?_ofText.mp lookup
    have nonneg := start_nonneg member
    have place : span.start = (front.take span.start.toNat).length := by
      rw [List.length_take]
      omega
    refine ⟨front.take span.start.toNat, front.drop span.start.toNat,
      (List.take_append_drop _ front).symm, place, ?_⟩
    have pieces : (ofText text).cells = front.take span.start.toNat ++
        (front.drop span.start.toNat ++ [last]) ++ after := by
      rw [← List.append_assoc, List.take_append_drop, division, List.append_assoc,
        List.singleton_append]
    refine balanced_of_string pieces member (Int.le_of_eq place) ?_
    rw [← List.append_assoc, List.take_append_drop, List.length_append, List.length_singleton]
    omega
  · rw [if_neg (by simpa using string)] at found
    split at found
    · cases found
    · next notOpener =>
        split at found
        · next closes =>
            obtain ⟨opener, search, rfl⟩ := Option.map_eq_some_iff.mp found
            rw [enclosing?, clamp_cells division, cellsBefore, division, List.take_left] at search
            obtain ⟨outer, cell, inner, rfl, rfl, opens, stays, -⟩ :=
              OpenGroups.exists_of_enclosingOpener search
            exact ⟨outer, cell :: inner, rfl, rfl, Balanced.group opens stays closes⟩
        · next notCloser =>
            have isAtom : last.isAtom = true := by
              have role := last.role_cases
              simp_all
            obtain ⟨outer, atoms, rfl, all, apart⟩ := exists_longest_suffix Cell.isAtom front
            have taken : (outer ++ atoms).reverse.takeWhile Cell.isAtom = atoms.reverse := by
              rw [List.reverse_append]
              refine takeWhile_append_eq (fun cell member => all cell (List.mem_reverse.mp member)) ?_
              rw [List.head?_reverse]
              exact apart
            rw [taken, List.length_reverse] at found
            refine ⟨outer, atoms, rfl, ?_, balanced_of_isAtom fun cell member => ?_⟩
            · have same := Option.some.inj found
              rw [List.length_append] at same
              omega
            · rcases List.mem_append.mp member with earlier | here
              · exact all cell earlier
              · rw [List.mem_singleton.mp here]
                exact isAtom

/-- **A motion back goes back, on its level.** -/
theorem level_of_backward? {text : Text} {offset start : Int}
    (found : (ofText text).backward? offset = some start) :
    ∃ place : Nat, start = place ∧ place < (ofText text).clamp offset ∧
      (ofText text).Level place ((ofText text).clamp offset) := by
  obtain ⟨above, after, division, place⟩ := (ofText text).exists_division_clamp offset
  obtain ⟨passed, blanks, rfl, blank, apart⟩ := exists_longest_suffix Cell.isBlank above
  rw [← backward?_clamp, place, backward?_append_blanks division blank] at found
  rcases List.eq_nil_or_concat passed with rfl | ⟨front, last, rfl⟩
  · simp [backward?, clamp, Text.clamp, cellsBefore] at found
  rw [List.concat_eq_append] at division apart found place
  have ends : (ofText text).cells = front ++ last :: (blanks ++ after) := by simp [division]
  have noBlank : last.isBlank = false := apart last (by simp)
  rw [backward?_eq ends noBlank] at found
  obtain ⟨body, first, rfl⟩ := Option.map_eq_some_iff.mp found
  obtain ⟨outer, element, rfl, rfl, balanced⟩ := exists_of_bodyStart? ends noBlank first
  obtain ⟨before, marks, rfl, mark, noMark⟩ := exists_longest_suffix Cell.isMark outer
  have begins : (ofText text).cells = before ++ marks ++ (element ++ last :: (blanks ++ after)) := by
    simp [division]
  have whole : (ofText text).cells =
      before ++ (marks ++ (element ++ [last]) ++ blanks) ++ after := by
    simp [division]
  have level : Balanced (marks ++ (element ++ [last]) ++ blanks) :=
    ((balanced_of_isMark mark).append balanced).append (balanced_of_isBlank blank)
  rw [beforeMarks_append begins mark noMark, place]
  refine ⟨before.length, rfl, ?_, ?_⟩
  · simp only [List.length_append, List.length_singleton]
    omega
  · have reached := Level.cells whole level
    simp only [← List.append_assoc] at reached
    exact reached

/-! ### Into a group and out of it -/

/-- What a motion into a group passes over before it comes to the opener. -/
theorem exists_of_intoGroup? {s : Snapshot} {offset : Int} {inside : Nat}
    (found : s.intoGroup? offset = some inside) :
    ∃ before plain opener after, s.cells = before ++ plain ++ opener :: after ∧
      s.clamp offset = before.length ∧ inside = (before ++ plain).length + 1 ∧
      Balanced plain ∧ opener.opens = true := by
  obtain ⟨before, behind, division, place⟩ := s.exists_division_clamp offset
  let noBracket := fun cell : Cell => !cell.opens && !cell.closes
  have pieces : behind = behind.takeWhile noBracket ++ behind.dropWhile noBracket :=
    List.takeWhile_append_dropWhile.symm
  have plain : ∀ cell ∈ behind.takeWhile noBracket, cell.opens = false ∧ cell.closes = false := by
    intro cell member
    simpa [noBracket] using List.mem_takeWhile_imp member
  rw [intoGroup?, place, cellsFrom, division, List.drop_left] at found
  cases rest : behind.dropWhile noBracket with
  | nil =>
      rw [rest] at found
      cases found
  | cons opener after =>
      rw [rest] at found pieces
      simp only [Option.ite_none_right_eq_some, Option.some.injEq] at found
      obtain ⟨opens, place'⟩ := found
      refine ⟨before, behind.takeWhile noBracket, opener, after, ?_, place, ?_,
        OpenGroups.balanced_of_no_brackets plain, opens⟩
      · rw [division, List.append_assoc, ← pieces]
      · rw [← place', size, division]
        conv => lhs; rw [pieces]
        simp only [List.length_append, List.length_cons]
        omega

/-- Behind an opener one is in its group. -/
theorem enclosing?_of_opens {s : Snapshot} {before after : List Cell} {opener : Cell}
    (division : s.cells = before ++ opener :: after) (opens : opener.opens = true) :
    s.enclosing? (before.length + 1 : Nat) = some before.length := by
  have further : s.cells = before ++ [opener] ++ after := by
    rw [division, List.append_assoc, List.singleton_append]
  have place : before.length + 1 = (before ++ [opener]).length := by
    rw [List.length_append, List.length_singleton]
  rw [place, enclosing?_of_cells further, OpenGroups.stepCells_append, stepCells, stepCells,
    OpenGroups.stepCell, if_pos opens, Nat.zero_add]
  rfl

/-- **A group ends behind every offset that it is around.** -/
theorem lt_of_forward?_enclosing {s : Snapshot} {offset stop : Int} {opener : Nat}
    (around : s.enclosing? offset = some opener) (found : s.forward? opener = some stop) :
    (s.clamp offset : Int) < stop := by
  obtain ⟨above, after, division, place⟩ := s.exists_division_clamp offset
  rw [enclosing?, place, cellsBefore, division, List.take_left] at around
  obtain ⟨before, cell, inner, rfl, rfl, opens, -, closer⟩ :=
    OpenGroups.exists_of_enclosingOpener around
  have approach : s.Approach before [] [] (cell :: (inner ++ after)) := by
    refine approach_of_marks (by simp [division]) (by simp) ?_ ?_
    · intro first head
      obtain rfl : cell = first := Option.some.inj head
      exact Cell.isMark_of_not_isAtom (Cell.isAtom_of_opens opens)
    · intro _ first head
      obtain rfl : cell = first := Option.some.inj head
      exact Cell.isBlank_of_opens opens
  rw [approach.forward?_opens opens, closer] at found
  obtain ⟨left, search, rfl⟩ := Option.map_eq_some_iff.mp found
  obtain ⟨inside, last, rest, rfl, rfl, -, -⟩ := OpenGroups.stepCells_of_enclosingCloser search
  rw [place, size, division]
  simp only [List.length_append, List.length_cons]
  omega

/-! ### All motions -/

/-- No look-up of a motion from an offset fails, and the answers are those over cells. -/
structure LooksUp (s : Snapshot) (offset : Int) : Prop where
  forward : s.tables.forward offset = .ok (s.forward? offset)
  backward : s.tables.backward offset = .ok (s.backward? offset)
  enclosing : s.tables.enclosing offset = .ok (s.enclosing? offset)
  intoGroup : s.tables.intoGroup offset = .ok (s.intoGroup? offset)

/-- A motion from an offset that ends somewhere ends in the text and has got on in its direction.
Motions over elements stay in their group, a motion into a group enters one of the group around it, and
a group ends behind the offset that it is around. -/
structure Nests (s : Snapshot) (offset : Int) : Prop where
  forward : ∀ stop, s.forward? offset = some stop →
    s.clamp offset < stop ∧ stop ≤ s.size ∧ s.enclosing? stop = s.enclosing? offset
  backward : ∀ start, s.backward? offset = some start →
    0 ≤ start ∧ start < s.clamp offset ∧ s.enclosing? start = s.enclosing? offset
  intoGroup : ∀ inside, s.intoGroup? offset = some inside →
    s.clamp offset < inside ∧ inside ≤ s.size ∧ s.enclosing? inside = some (inside - 1) ∧
      s.enclosing? (inside - 1 : Nat) = s.enclosing? offset
  enclosing : ∀ opener, s.enclosing? offset = some opener →
    opener < s.clamp offset ∧ ∀ stop, s.forward? opener = some stop → s.clamp offset < stop

/-- **The motions over every text answer from every offset, get on and keep to their groups.** -/
theorem motions_nest (text : Text) (offset : Int) :
    (ofText text).LooksUp offset ∧ (ofText text).Nests offset := by
  refine ⟨⟨Tables.forward_tables text offset, Tables.backward_tables text offset,
    Tables.enclosing_tables _ offset, Tables.intoGroup_tables _ offset⟩, ?_, ?_, ?_, ?_⟩
  · intro stop found
    obtain ⟨place, rfl, later, level⟩ := level_of_forward? found
    refine ⟨Int.ofNat_lt.mpr later, Int.ofNat_le.mpr level.le_size, ?_⟩
    rw [level.enclosing?_eq, enclosing?_clamp]
  · intro start found
    obtain ⟨place, rfl, earlier, level⟩ := level_of_backward? found
    refine ⟨Int.natCast_nonneg _, Int.ofNat_lt.mpr earlier, ?_⟩
    rw [← level.enclosing?_eq, enclosing?_clamp]
  · intro inside found
    obtain ⟨before, plain, opener, after, division, place, rfl, balanced, opens⟩ :=
      exists_of_intoGroup? found
    have level := Level.cells division balanced
    have size : (ofText text).size = (before ++ plain).length + (after.length + 1) := by
      rw [Snapshot.size, division, List.length_append, List.length_cons]
    refine ⟨?_, ?_, enclosing?_of_opens division opens, ?_⟩
    · rw [place, List.length_append]
      omega
    · omega
    · rw [Nat.add_sub_cancel, level.enclosing?_eq, ← place, enclosing?_clamp]
  · intro opener around
    exact ⟨enclosing?_lt around, fun stop found => lt_of_forward?_enclosing around found⟩

end Snapshot

end LispEditor
