import LispEditor.Editor.Basic
import LispEditor.Proofs.BlankSplice
import LispEditor.Proofs.ShownText

/-!
# Edits of a document, in characters

A document counts UTF-16 units, and the functions on texts count characters. Where a cursor stands
between two characters the two ways of counting agree, and an edit of a document can be told by the
pieces of the text that it shows.

* `Document.StandsAt`: the cursor and its anchor stand between characters.
* `Document.text_replace_eq`, `Document.text_replace`, `Document.modified_replace`: what replacing a
  piece does.
* `Editor.replaceLines_eq`: a document that takes over a part of a new text has the new text, if the
  two texts agree on the rest.
-/

namespace LispEditor

namespace Document

open Text (utf16Length utf16Position)

/-! ### Where the cursor stands -/

/-- The cursor and its anchor stand between characters, at these offsets. -/
structure StandsAt (d : Document) (cursor anchor : Nat) : Prop where
  cursor_le : cursor ≤ d.text.length
  anchor_le : anchor ≤ d.text.length
  position_eq : d.position = utf16Position d.text cursor
  anchor_eq : d.anchor = utf16Position d.text anchor

/-- A document with this text, and its cursor at an offset of it with nothing selected. -/
structure Shows (d : Document) (text : Text) (cursor : Int) : Prop where
  text_eq : d.text = text
  position_eq : d.position = utf16Position text cursor
  anchor_eq : d.anchor = utf16Position text cursor

variable {d : Document} {cursor anchor : Nat}

/-- What a document shows is a text that is shown as it is. -/
theorem shown_text (d : Document) : Text.shown d.text = d.text :=
  Text.shown_shown d.held

@[simp]
theorem length_text (d : Document) : d.text.length = d.held.length :=
  Text.length_shown d.held

theorem offsetOf_append {a b : Text} (division : d.text = a ++ b) :
    d.offsetOf (utf16Length a) = a.length := by
  rw [offsetOf, division, Text.ofUtf16Position_append]

/-- The same, told by the text that is held. -/
theorem offsetOf_held_append {a b : Text} (division : d.held = a ++ b) :
    d.offsetOf (utf16Length a) = a.length := by
  rw [offsetOf, text, Text.ofUtf16Position_shown, division, Text.ofUtf16Position_append]

theorem offsetOf_utf16Position {offset : Nat} (inside : offset ≤ d.text.length) :
    d.offsetOf (utf16Position d.text offset) = offset := by
  rw [offsetOf, Text.ofUtf16Position_utf16Position inside]

namespace StandsAt

theorem offset_eq (stands : d.StandsAt cursor anchor) : d.offset = cursor := by
  rw [offset, stands.position_eq, offsetOf_utf16Position stands.cursor_le]

theorem selectionStart_eq (stands : d.StandsAt cursor anchor) :
    d.selectionStart = utf16Position d.text (min cursor anchor : Nat) := by
  have order := Text.utf16Position_le_iff stands.cursor_le stands.anchor_le
  rw [selectionStart, stands.position_eq, stands.anchor_eq]
  rcases Nat.le_total cursor anchor with before | behind
  · rw [Nat.min_eq_left before, Nat.min_eq_left (order.mpr before)]
  · have order' := Text.utf16Position_le_iff stands.anchor_le stands.cursor_le
    rw [Nat.min_eq_right behind, Nat.min_eq_right (order'.mpr behind)]

theorem selectionStop_eq (stands : d.StandsAt cursor anchor) :
    d.selectionStop = utf16Position d.text (max cursor anchor : Nat) := by
  have order := Text.utf16Position_le_iff stands.cursor_le stands.anchor_le
  rw [selectionStop, stands.position_eq, stands.anchor_eq]
  rcases Nat.le_total cursor anchor with before | behind
  · rw [Nat.max_eq_right before, Nat.max_eq_right (order.mpr before)]
  · have order' := Text.utf16Position_le_iff stands.anchor_le stands.cursor_le
    rw [Nat.max_eq_left behind, Nat.max_eq_left (order'.mpr behind)]

/-- Something is selected exactly if the cursor and its anchor stand apart. -/
theorem hasSelection_iff (stands : d.StandsAt cursor anchor) :
    d.hasSelection = true ↔ cursor ≠ anchor := by
  have low := Text.utf16Position_le_iff stands.cursor_le stands.anchor_le
  have high := Text.utf16Position_le_iff stands.anchor_le stands.cursor_le
  rw [hasSelection, bne_iff_ne, stands.position_eq, stands.anchor_eq]
  omega

end StandsAt

/-! ### Replacing -/

section Replace

variable {a old b : Text}

/-- What a document holds after an edit. -/
theorem held_replace (d : Document) (start stop : Nat) (new : Text) :
    (d.replace start stop new).held =
      d.held.take (d.offsetOf start) ++ Text.settle new ++ d.held.drop (d.offsetOf stop) := by
  rw [replace]
  split
  next nothing =>
    obtain ⟨same, empty⟩ := Bool.and_eq_true_iff.mp nothing
    rw [eq_of_beq same, List.isEmpty_iff.mp empty, Text.settle, List.append_nil,
      List.take_append_drop]
  next => rfl

/-- Replacing a piece of the text leaves the pieces around it. -/
theorem text_replace_eq (division : d.text = a ++ old ++ b) (new : Text) :
    (d.replace (utf16Length a) (utf16Length (a ++ old)) new).text =
      a ++ Text.shown (Text.settle new) ++ b := by
  have start : d.offsetOf (utf16Length a) = a.length :=
    offsetOf_append (division.trans (List.append_assoc a old b))
  have stop : d.offsetOf (utf16Length (a ++ old)) = (a ++ old).length := offsetOf_append division
  have front : Text.shown (d.held.take a.length) = a := by
    rw [Text.shown_take, ← text, division, List.append_assoc, List.take_left]
  have back : Text.shown (d.held.drop (a ++ old).length) = b := by
    rw [Text.shown_drop, ← text, division, List.drop_left]
  rw [text, held_replace, start, stop, Text.shown_append, Text.shown_append, front, back]

/-- A piece that is shown as it is takes the place of another. -/
theorem text_replace (division : d.text = a ++ old ++ b) {new : Text}
    (clear : Text.shown new = new) :
    (d.replace (utf16Length a) (utf16Length (a ++ old)) new).text = a ++ new ++ b := by
  rw [text_replace_eq division, Text.settle_eq_self clear, clear]

/-- Replacing is an edit unless nothing is replaced by nothing. -/
theorem modified_replace (d : Document) (a old new : Text) :
    (d.replace (utf16Length a) (utf16Length (a ++ old)) new).modified =
      (d.modified || !(old.isEmpty && new.isEmpty)) := by
  have nothing : (utf16Length a == utf16Length (a ++ old)) = old.isEmpty := by
    rw [Bool.eq_iff_iff, beq_iff_eq, List.isEmpty_iff, Text.utf16Length_append,
      ← Text.utf16Length_eq_zero]
    omega
  rw [replace, nothing]
  cases old.isEmpty && new.isEmpty <;> simp

theorem replaceOffsets_eq (division : d.text = a ++ old ++ b) (new : Text) :
    d.replaceOffsets a.length ((a ++ old).length : Nat) new =
      d.replace (utf16Length a) (utf16Length (a ++ old)) new := by
  rw [replaceOffsets, division, Text.utf16Position_append, List.append_assoc,
    Text.utf16Position_append]

end Replace

/-! ### Placing the cursor -/

/-- A cursor that is put at an offset of the text is where it should be. -/
theorem shows_place {text : Text} (same : d.text = text) (cursor : Int) :
    (d.place (utf16Position text cursor)).Shows text cursor :=
  ⟨same, rfl, rfl⟩

/-- A position of the text lies in the document, so it is never passed over. -/
theorem placeFrom_eq {text : Text} (same : d.text = text) (working : Cursor) (cursor : Int) :
    d.placeFrom working (utf16Position text cursor) = d.place (utf16Position text cursor) := by
  have inside : d.holds (utf16Position text cursor) = true := by
    have bound := Text.utf16Position_le text cursor
    rw [holds, length, same]
    exact decide_eq_true ⟨Int.natCast_nonneg _, Int.ofNat_le.mpr bound⟩
  rw [placeFrom, if_pos inside]

@[simp]
theorem modified_place (d : Document) (position : Nat) :
    (d.place position).modified = d.modified := rfl

/-- Moving the cursor leaves the text. -/
@[simp]
theorem text_placeFrom (d : Document) (working : Cursor) (position : Nat) :
    (d.placeFrom working position).text = d.text := by
  rw [placeFrom]
  split <;> rfl

end Document

/-! ### Taking over a part of a new text -/

namespace Editor

variable {d : Document} {a old b : Text}

/-- What a document shows of a part that it holds. -/
theorem shown_slice (d : Document) (start stop : Int) :
    Text.shown (Text.slice d.held start stop) = Text.slice d.text start stop := by
  rw [Text.slice, Text.slice, Text.sliceTo, Text.sliceTo, Document.length_text, Text.shown_drop,
    Text.shown_take]
  rfl

/-- A document takes over what a new text has between its first and its last piece. This is an edit
unless the document holds just that piece. -/
theorem replaceLines_eq (division : d.text = a ++ old ++ b) {new : Text}
    (clear : Text.shown new = new) :
    (replaceLines d a.length ((a ++ old).length : Nat) (a ++ new ++ b)).1.text = a ++ new ++ b ∧
      (replaceLines d a.length ((a ++ old).length : Nat) (a ++ new ++ b)).1.modified =
        (d.modified || decide (Text.slice d.held a.length ((a ++ old).length : Nat) ≠ new)) := by
  have newLast : ((a ++ old).length : Int) + ((a ++ new ++ b).length - d.text.length) =
      ((a ++ new).length : Nat) := by
    rw [division]
    simp only [List.length_append]
    omega
  have taken : Text.slice (a ++ new ++ b) a.length
      (((a ++ old).length : Int) + ((a ++ new ++ b).length - d.text.length)) = new := by
    rw [newLast, Text.slice_append]
  have present : Text.shown (Text.slice d.held a.length ((a ++ old).length : Nat)) = old := by
    rw [shown_slice, division, Text.slice_append]
  have start : Text.utf16Position d.text a.length = Text.utf16Length a := by
    rw [division, List.append_assoc, Text.utf16Position_append]
  have stop : Text.utf16Position d.text ((a ++ old).length : Nat) = Text.utf16Length (a ++ old) := by
    rw [division, Text.utf16Position_append]
  simp only [replaceLines, taken, start, stop]
  generalize Text.slice d.held a.length ((a ++ old).length : Nat) = held at present
  by_cases same : held = new
  · rw [if_pos (beq_iff_eq.mpr same)]
    refine ⟨?_, by simp [same]⟩
    rw [division, ← present, same, clear]
  · have edits : (old.isEmpty && new.isEmpty) = false := by
      rw [Bool.eq_false_iff, Ne, Bool.and_eq_true, List.isEmpty_iff, List.isEmpty_iff]
      rintro ⟨rfl, rfl⟩
      exact same (List.map_eq_nil_iff.mp present)
    rw [if_neg (mt beq_iff_eq.mp same)]
    refine ⟨Document.text_replace division clear, ?_⟩
    rw [Document.modified_replace, edits]
    simp [same]

/-- Whatever the new text is, the document keeps its own text around the part that it takes over. -/
theorem exists_text_replaceLines (division : d.text = a ++ old ++ b) (newText : Text) :
    ∃ new, (replaceLines d a.length ((a ++ old).length : Nat) newText).1.text = a ++ new ++ b := by
  have start : Text.utf16Position d.text a.length = Text.utf16Length a := by
    rw [division, List.append_assoc, Text.utf16Position_append]
  have stop : Text.utf16Position d.text ((a ++ old).length : Nat) = Text.utf16Length (a ++ old) := by
    rw [division, Text.utf16Position_append]
  simp only [replaceLines, start, stop]
  split
  · exact ⟨old, division⟩
  · exact ⟨_, Document.text_replace_eq division _⟩

end Editor

end LispEditor
