import LispEditor.Editor.Typing

/-!
# Commands to an editor

Everything that can be asked of an editor from outside, and what it then does. The only command that
can fail is the one to use a font size that is no number.
-/

namespace LispEditor

/-- What can be asked of an editor. -/
inductive EditorCommand where
  | press (key : Key)
  | typeText (text : Text)
  | cut
  | paste (text : Text)
  /-- Puts a text in the place of any part, as happens where it is dropped or deleted by words. -/
  | replace (start stop : Nat) (text : Text)
  /-- Takes back the last edit, which was made at a position. What is taken back at one stroke may be
  several edits, such as those of a word that was typed. -/
  | undo (position : Nat)
  /-- Makes the edit again that was taken back last, at a position. -/
  | redo (position : Nat)
  | select (anchor position : Int)
  | setText (text : Text)
  | gotoOffset (offset : Int)
  | setPalette (palette : Palette)
  | setIndentWidth (width : Int)
  | setFontSize (size : JsonValue)
  | adjustFontSize (delta : Int)
  | resetFontSize
  | setWordWrap (enabled : Bool)
  | reindentLine
  | reindentSelection
  | reindent

/-- The editor after a command. -/
def Editor.perform (e : Editor) : EditorCommand → Except IntegerError Editor
  | .press key => .ok (e.press key)
  | .typeText text => .ok (e.typeText text)
  | .cut => .ok (e.onDocument Document.removeSelection)
  | .paste text => .ok (e.onDocument fun d => d.paste text)
  | .replace start stop text => .ok (e.onDocument fun d => d.replaceWithin start stop text)
  | .undo position => .ok (e.onDocument fun d => d.undo position)
  | .redo position => .ok (e.onDocument fun d => d.redo position)
  | .select anchor position => .ok (e.onDocument fun d => d.select anchor position)
  | .setText text => .ok (e.setText text)
  | .gotoOffset offset => .ok (e.gotoOffset offset)
  | .setPalette palette => .ok (e.setPalette palette)
  | .setIndentWidth width => .ok (e.setIndentWidth width)
  | .setFontSize size => e.setFontSizeFrom size
  | .adjustFontSize delta => .ok (e.adjustFontSize delta)
  | .resetFontSize => .ok e.resetFontSize
  | .setWordWrap enabled => .ok (e.setWordWrap enabled)
  | .reindentLine => .ok e.reindentLine
  | .reindentSelection => .ok e.reindentSelection
  | .reindent => .ok e.reindent

end LispEditor
