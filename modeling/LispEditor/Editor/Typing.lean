import LispEditor.Editor.Basic
import LispEditor.Text.Typeable

/-!
# Typing

Opening brackets and quotes are typed in pairs, with the cursor between them. A closing one is
stepped over when it already stands behind the cursor, unless something is selected. Behind a
backslash a bracket or quote is a literal and comes alone. What cannot be typed is passed over.
-/

namespace LispEditor

/-- What a key press says. -/
inductive Key where
  /-- A line break. -/
  | enter
  /-- A wish for indentation. -/
  | tab
  /-- A character. -/
  | char (c : Char)
  | backspace
  | delete
  /-- A key that stands for no text. -/
  | silent
  deriving DecidableEq, Repr

namespace Editor

/-- The closing partner of an opening bracket or quote. -/
def partner? (c : Char) : Option Char :=
  [('(', ')'), ('[', ']'), ('{', '}'), ('"', '"')].lookup c

/-- Whether a character is the closing one of a pair. -/
def isPartner (c : Char) : Bool :=
  c ∈ [')', ']', '}', '"']

/-- Types a character. -/
def typeChar (d : Document) (c : Char) : Document :=
  if isPartner c && !d.hasSelection && d.charAfter? == some c then
    d.place (d.position + Text.unitsOf c)
  else
    match partner? c with
    | some partner =>
        if d.charBefore? == some '\\' then d.type [c]
        else
          let d := d.type [c]
          (d.type [partner]).place d.position
    | none => if Text.isTypeable c then d.type [c] else d

/-- Presses a key. -/
def press (e : Editor) : Key → Editor
  | .enter => e.newline
  | .tab => e.reindentSelection
  | .char c => e.onDocument fun d => typeChar d c
  | .backspace => e.onDocument Document.deleteBefore
  | .delete => e.onDocument Document.deleteAfter
  | .silent => e

/-- Presses one key for each character of a text. -/
def typeText (e : Editor) (text : Text) : Editor :=
  text.foldl (fun e c => e.press (.char c)) e

end Editor

end LispEditor
