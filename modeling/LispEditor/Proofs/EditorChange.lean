import Mathlib.Logic.Relation
import LispEditor.Editor.Command
import LispEditor.Proofs.Utf16Positions

/-!
# What edits leave behind

Whatever is asked of an editor, short of giving it another text, is done to its document in a few
ways only: the cursor is put somewhere, a part of the text is replaced, or an edit is taken back or
made again. So what these keep is kept by all commands.

Here this is used for what the document knows. With a text that it did not have before it counts as
modified, and so it does with every text that it can go back to, unless it did not before.

* `Editor.changes_perform`: every command is made of single changes.
* `Document.Change.edits`, `Document.Changes.edits`: what a single change leaves behind, and so all
  of them.
* `Editor.edits_perform`: an edit is known to the document.
-/

namespace LispEditor

namespace Document

/-- A single change of a document. The cursor is put somewhere, a part is replaced that starts within
the text or with the selection, or an edit is taken back or made again. -/
inductive Change (d : Document) : Document → Prop
  | cursor (position anchor : Nat) : Change d (d.setCursor position anchor)
  | replaced {start stop : Nat} {inserted : Text} :
      start ≤ d.length ∨ start ≤ d.position ∧ start ≤ stop →
      Change d (d.replace start stop inserted)
  | undone (position : Nat) : Change d (d.undo position)
  | redone (position : Nat) : Change d (d.redo position)

/-- Changes one after the other. -/
abbrev Changes : Document → Document → Prop :=
  Relation.ReflTransGen Change

section Changes

variable {before d : Document}

theorem Changes.place (changes : Changes before d) (position : Nat) :
    Changes before (d.place position) :=
  changes.tail (.cursor position position)

theorem Changes.placeFrom (changes : Changes before d) (working : Cursor) (position : Nat) :
    Changes before (d.placeFrom working position) := by
  rw [Document.placeFrom]
  split
  · exact changes.place position
  · exact changes.tail (.cursor _ _)

theorem Changes.replaceOffsets (changes : Changes before d) (start stop : Int) (inserted : Text) :
    Changes before (d.replaceOffsets start stop inserted) :=
  changes.tail (.replaced (.inl (Text.utf16Position_le d.text start)))

/-- The selection gives way to a text. -/
theorem Changes.replaceSelection (changes : Changes before d) (inserted : Text) :
    Changes before (d.replace d.selectionStart d.selectionStop inserted) := by
  refine changes.tail (.replaced (.inr ⟨?_, ?_⟩))
  · exact Nat.min_le_left _ _
  · exact Nat.le_trans (Nat.min_le_left _ _) (Nat.le_max_left _ _)

theorem Changes.type (changes : Changes before d) (inserted : Text) :
    Changes before (d.type inserted) :=
  (changes.replaceSelection inserted).place _

theorem changes_paste (d : Document) (inserted : Text) : Changes d (d.paste inserted) := by
  rw [paste]
  split
  · exact .refl
  · exact Changes.type .refl inserted

theorem changes_deleteBefore (d : Document) : Changes d d.deleteBefore := by
  rw [deleteBefore]
  split
  · exact Changes.replaceSelection .refl []
  · exact Changes.replaceOffsets .refl _ _ []

theorem changes_deleteAfter (d : Document) : Changes d d.deleteAfter := by
  rw [deleteAfter]
  split
  · exact Changes.replaceSelection .refl []
  · exact Changes.replaceOffsets .refl _ _ []

end Changes

/-! ### What a document remembers -/

/-- What a document is, was and can become again. -/
def revisions (d : Document) : List Revision :=
  d.revision :: (d.past ++ d.future)

/-- What an edit leaves behind: the document counts as unmodified, now or when it goes back, with
nothing but what it counted as unmodified with before. -/
def Edits (before after : Document) : Prop :=
  ∀ revision ∈ after.revisions, revision.modified = false → revision ∈ before.revisions

theorem Edits.refl (d : Document) : d.Edits d :=
  fun _ member _ => member

theorem Edits.trans {a b c : Document} (first : a.Edits b) (second : b.Edits c) : a.Edits c :=
  fun revision member unmodified => first revision (second revision member unmodified) unmodified

/-- Going back and forth, a document forgets nothing. -/
theorem perm_revisions_undo (d : Document) (position : Nat) :
    (d.undo position).revisions.Perm d.revisions := by
  unfold undo
  split
  next => exact .refl _
  next before earlier past =>
    have now : d.revisions = d.revision :: (before :: earlier ++ d.future) := by
      rw [revisions, past]
    rw [now]
    show (before :: earlier ++ d.revision :: d.future).Perm _
    exact List.perm_middle

theorem perm_revisions_redo (d : Document) (position : Nat) :
    (d.redo position).revisions.Perm d.revisions := by
  unfold redo
  split
  next => exact .refl _
  next after later future =>
    have now : d.revisions = d.revision :: d.past ++ after :: later := by
      rw [revisions, future, List.cons_append]
    rw [now]
    show (after :: (d.revision :: d.past ++ later)).Perm _
    exact List.perm_middle.symm

/-- **A single change is known to the document.** -/
theorem Change.edits {d after : Document} (change : Change d after) : d.Edits after := by
  cases change with
  | cursor position anchor => exact .refl d
  | replaced =>
      rw [replace]
      split
      next => exact .refl d
      next =>
        -- The new text counts as modified, and nothing is left that was to come.
        intro revision member unmodified
        rcases List.mem_cons.mp member with rfl | old
        · exact nomatch unmodified
        · rw [List.append_nil] at old
          rcases List.mem_cons.mp old with rfl | earlier
          · exact List.mem_cons_self
          · exact List.mem_cons_of_mem _ (List.mem_append_left _ earlier)
  | undone position => exact fun _ member _ => (d.perm_revisions_undo position).mem_iff.mp member
  | redone position => exact fun _ member _ => (d.perm_revisions_redo position).mem_iff.mp member

theorem Changes.edits {before after : Document} (changes : Changes before after) :
    before.Edits after := by
  induction changes with
  | refl => exact .refl before
  | tail _ change ih => exact ih.trans change.edits

end Document

/-! ### Editors -/

/-- What a user does to a text: anything but to give the editor another one. -/
def EditorCommand.ByUser : EditorCommand → Prop
  | .setText _ => False
  | _ => True

namespace Editor

open Document (Changes)

theorem changes_replaceLines (d : Document) (first last : Int) (newText : Text) :
    Changes d (replaceLines d first last newText).1 := by
  unfold replaceLines
  dsimp only
  split
  · exact .refl
  · exact .single (.replaced (.inl (Text.utf16Position_le d.text first)))

theorem changes_typeChar (d : Document) (c : Char) : Changes d (typeChar d c) := by
  rw [typeChar]
  split
  next => exact Changes.place .refl _
  next =>
    split
    next partner _ =>
      split
      next => exact Changes.type .refl [c]
      next => exact ((Changes.type .refl [c]).type [partner]).place _
    next =>
      split
      next => exact Changes.type .refl [c]
      next => exact .refl

variable (e : Editor)

theorem changes_reindentLine : Changes e.document e.reindentLine.document := by
  refine Changes.place ?_ _
  split
  next => exact Changes.replaceOffsets .refl _ _ _
  next => exact .refl

theorem changes_reindentRange (first last start stop : Int) :
    Changes e.document (e.reindentRange first last start stop).document :=
  Changes.placeFrom (changes_replaceLines _ _ _ _) _ _

theorem changes_reindentSelection : Changes e.document e.reindentSelection.document := by
  rw [reindentSelection]
  split
  · exact e.changes_reindentRange _ _ _ _
  · exact e.changes_reindentLine

theorem changes_newline : Changes e.document e.newline.document :=
  ((Changes.replaceSelection .refl []).replaceOffsets _ _ _).place _

theorem changes_press (key : Key) : Changes e.document (e.press key).document := by
  cases key with
  | enter => exact e.changes_newline
  | tab => exact e.changes_reindentSelection
  | char c => exact changes_typeChar _ c
  | backspace => exact e.document.changes_deleteBefore
  | delete => exact e.document.changes_deleteAfter
  | silent => exact .refl

/-- Typing a text is typing its characters. -/
theorem changes_typeText (text : Text) : Changes e.document (e.typeText text).document := by
  induction text generalizing e with
  | nil => exact .refl
  | cons c rest ih => exact (e.changes_press (.char c)).trans (ih _)

/-- **Every command is made of single changes**, unless it gives the editor another text. -/
theorem changes_perform {command : EditorCommand} (byUser : command.ByUser) {after : Editor}
    (done : e.perform command = .ok after) : Changes e.document after.document := by
  cases command with
  | press key => exact Except.ok.inj done ▸ e.changes_press key
  | typeText text => exact Except.ok.inj done ▸ e.changes_typeText text
  | cut => exact Except.ok.inj done ▸ Changes.replaceSelection .refl []
  | paste text => exact Except.ok.inj done ▸ e.document.changes_paste text
  | replace start stop text =>
      exact Except.ok.inj done ▸ .single (.replaced (.inl (Nat.min_le_right _ _)))
  | undo position => exact Except.ok.inj done ▸ .single (.undone position)
  | redo position => exact Except.ok.inj done ▸ .single (.redone position)
  | select anchor position => exact Except.ok.inj done ▸ .single (.cursor _ _)
  | setText text => exact byUser.elim
  | gotoOffset offset => exact Except.ok.inj done ▸ Changes.place .refl _
  | setPalette palette => exact Except.ok.inj done ▸ .refl
  | setIndentWidth width => exact Except.ok.inj done ▸ .refl
  | setFontSize size =>
      rw [perform, setFontSizeFrom] at done
      cases found : size.toInteger with
      | error cause => rw [found] at done; exact nomatch done
      | ok points => rw [found] at done; exact Except.ok.inj done ▸ .refl
  | adjustFontSize delta => exact Except.ok.inj done ▸ .refl
  | resetFontSize => exact Except.ok.inj done ▸ .refl
  | setWordWrap enabled => exact Except.ok.inj done ▸ .refl
  | reindentLine => exact Except.ok.inj done ▸ e.changes_reindentLine
  | reindentSelection => exact Except.ok.inj done ▸ e.changes_reindentSelection
  | reindent => exact Except.ok.inj done ▸ e.changes_reindentRange _ _ _ _

/-- **An edit is known to the document.** -/
theorem edits_perform {command : EditorCommand} (byUser : command.ByUser) {after : Editor}
    (done : e.perform command = .ok after) : e.document.Edits after.document :=
  (e.changes_perform byUser done).edits

end Editor

end LispEditor
