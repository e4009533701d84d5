import LispEditor.Text.Line
import LispEditor.Text.Shown

/-!
# Documents

A document is a text with a cursor. Positions count UTF-16 units. The cursor has an anchor as well:
what lies between the two is selected. A document knows whether it was modified, and whether its
cursor has moved since somebody last looked.

What a document holds is not always what it shows. Blocks, and the characters at the cursor, are
those of the text that it holds; whoever asks for the text gets the one that it shows. The two have
the same offsets and positions.

Every edit can be taken back and made again. A document remembers the texts that it had, and with
each of them whether it counts as modified there.
-/

namespace LispEditor

/-- A position, and the anchor from which a selection reaches to it. -/
structure Cursor where
  position : Nat
  anchor : Nat
  deriving DecidableEq, Repr

/-- A cursor at a position with nothing selected. -/
def Cursor.ofPosition (position : Nat) : Cursor :=
  ⟨position, position⟩

/-- A text that a document held, and whether it counts as modified with that text. -/
structure Revision where
  held : Text
  modified : Bool
  deriving DecidableEq, Repr

/-- A text with a cursor. -/
structure Document where
  held : Text
  position : Nat
  anchor : Nat
  modified : Bool := false
  moved : Bool := false
  /-- What the document was before each edit, the last edit first. -/
  past : List Revision := []
  /-- What the document was before edits were taken back, the one that was taken back last first. -/
  future : List Revision := []
  deriving DecidableEq, Repr

namespace Document

/-- A document without text. -/
def empty : Document :=
  { held := [], position := 0, anchor := 0 }

/-- A document with a new text, unmodified and with the cursor at its start. This always counts as a
move, and there is nothing to take back. -/
def setText (text : Text) : Document :=
  { held := Text.settle text, position := 0, anchor := 0, moved := true }

/-- The text that a document shows. -/
def text (d : Document) : Text :=
  Text.shown d.held

/-- What a document is now. -/
def revision (d : Document) : Revision :=
  ⟨d.held, d.modified⟩

/-! ### The cursor -/

/-- The length of the text in UTF-16 units. -/
def length (d : Document) : Nat :=
  Text.utf16Length d.text

/-- The offset of a position. -/
def offsetOf (d : Document) (position : Nat) : Nat :=
  Text.ofUtf16Position d.text position

/-- The offset of the cursor. -/
def offset (d : Document) : Nat :=
  d.offsetOf d.position

/-- Where the selection starts. -/
def selectionStart (d : Document) : Nat :=
  min d.position d.anchor

/-- Where the selection ends. -/
def selectionStop (d : Document) : Nat :=
  max d.position d.anchor

/-- Whether anything is selected. -/
def hasSelection (d : Document) : Bool :=
  d.position != d.anchor

/-- Puts the cursor and its anchor somewhere. Only a new position counts as a move. -/
def setCursor (d : Document) (position anchor : Nat) : Document :=
  { d with position := position, anchor := anchor, moved := d.moved || position != d.position }

/-- Puts the cursor somewhere with nothing selected. -/
def place (d : Document) (position : Nat) : Document :=
  d.setCursor position position

/-- Whether a position lies in the document. -/
def holds (d : Document) (position : Int) : Bool :=
  decide (0 ≤ position ∧ position ≤ d.length)

/-- Puts the cursor at a position with nothing selected. A position outside the document is passed
over, and the cursor goes where `working` is: the one with which the document was edited before. -/
def placeFrom (d : Document) (working : Cursor) (position : Nat) : Document :=
  if d.holds position then d.place position else d.setCursor working.position working.anchor

/-- Selects from an anchor to a position. Either is passed over if it lies outside the document; an
anchor takes the position with it. -/
def select (d : Document) (anchor position : Int) : Document :=
  let (p, a) := if d.holds anchor then (anchor.toNat, anchor.toNat) else (d.position, d.anchor)
  d.setCursor (if d.holds position then position.toNat else p) a

/-- The character behind the cursor. -/
def charAfter? (d : Document) : Option Char :=
  d.held[d.offset]?

/-- The character before the cursor. -/
def charBefore? (d : Document) : Option Char :=
  (d.held.take d.offset).getLast?

/-- The offset at which the block of the cursor starts. -/
def blockStart (d : Document) : Nat :=
  Text.lineStart d.held d.offset

/-- The number of the block that the cursor is in, counted from 1. -/
def line (d : Document) : Nat :=
  Text.lineNumber d.held d.offset

/-- The column of the cursor in its block, counted from 1. -/
def column (d : Document) : Nat :=
  d.position - Text.utf16Position d.text d.blockStart + 1

/-! ### Editing -/

/-- Where a position goes when `[start, stop)` is replaced by `units` units. -/
def carry (start stop units position : Nat) : Nat :=
  if position < start then position
  else if stop ≤ position then position + units - (stop - start)
  else start + units

/-- Whether a position counts as moved when something behind `start` is replaced by `units` units. One
at the start of what is only removed stays where it is, and does not. -/
def carries (start units position : Nat) : Bool :=
  decide (start < position ∨ (start = position ∧ 0 < units))

/-- Replaces `[start, stop)` by a text. The cursor is carried along. To replace nothing by nothing
is no edit; to replace a text by the same one is. -/
def replace (d : Document) (start stop : Nat) (inserted : Text) : Document :=
  if start == stop && inserted.isEmpty then d
  else
    let settled := Text.settle inserted
    let units := Text.utf16Length settled
    { held := d.held.take (d.offsetOf start) ++ settled ++ d.held.drop (d.offsetOf stop)
      position := carry start stop units d.position
      anchor := carry start stop units d.anchor
      modified := true
      moved := d.moved || carries start units d.position
      past := d.revision :: d.past
      future := [] }

/-- Replaces the characters `[start, stop)`, counted in offsets. -/
def replaceOffsets (d : Document) (start stop : Int) (inserted : Text) : Document :=
  d.replace (Text.utf16Position d.text start) (Text.utf16Position d.text stop) inserted

/-- Replaces what lies between two positions, as far as they lie in the document, by a text. -/
def replaceWithin (d : Document) (start stop : Nat) (inserted : Text) : Document :=
  d.replace (min start d.length) (max (min start d.length) (min stop d.length)) inserted

/-- Takes the selection away. -/
def removeSelection (d : Document) : Document :=
  d.replace d.selectionStart d.selectionStop []

/-- Replaces the selection by a text and puts the cursor behind it. -/
def type (d : Document) (inserted : Text) : Document :=
  let start := d.selectionStart
  (d.replace start d.selectionStop inserted).place
    (start + Text.utf16Length (Text.settle inserted))

/-- Puts in a text from elsewhere, in the place of the selection. An empty one does nothing. -/
def paste (d : Document) (inserted : Text) : Document :=
  if inserted.isEmpty then d else d.type inserted

/-- Takes away the selection, or else the character before the cursor. -/
def deleteBefore (d : Document) : Document :=
  if d.hasSelection then d.removeSelection
  else d.replaceOffsets (d.offset - 1 : Nat) d.offset []

/-- Takes away the selection, or else the character behind the cursor. -/
def deleteAfter (d : Document) : Document :=
  if d.hasSelection then d.removeSelection
  else d.replaceOffsets d.offset (d.offset + 1 : Nat) []

/-! ### Going back -/

/-- Makes the document what it was at some time. The cursor goes to where the edit was that makes the
difference, and this always counts as a move. -/
def restore (d : Document) (revision : Revision) (position : Nat) : Document :=
  { d with
    held := revision.held
    position := min position (Text.utf16Length revision.held)
    anchor := min position (Text.utf16Length revision.held)
    modified := revision.modified
    moved := true }

/-- Takes back the last edit, which was made at `position`. -/
def undo (d : Document) (position : Nat) : Document :=
  match d.past with
  | [] => d
  | before :: earlier =>
      { d.restore before position with past := earlier, future := d.revision :: d.future }

/-- Makes the edit again that was taken back last, at `position`. -/
def redo (d : Document) (position : Nat) : Document :=
  match d.future with
  | [] => d
  | after :: later =>
      { d.restore after position with past := d.revision :: d.past, future := later }

/-- A document that counts as saved. With every other text that it had, it counts as modified. -/
def markSaved (d : Document) : Document :=
  let modified (revision : Revision) : Revision := { revision with modified := true }
  { d with modified := false, past := d.past.map modified, future := d.future.map modified }

end Document

end LispEditor
