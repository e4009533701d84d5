import LispEditor.Text.Slice

/-!
# Dialogs

The dialogs that a window shows, and the answers a user gives to them. A file dialog that is
cancelled gives no path, and so does one in which no name was entered.
-/

namespace LispEditor

/-- A dialog that was shown. -/
inductive Dialog where
  | openFile (title filter : String)
  | saveFile (title filter : String)
  | integer (title label : String) (value least greatest : Int)
  | warning (title text : String)
  | critical (title text : String)
  deriving DecidableEq, Repr

/-- The answers to the dialogs that a command may lead to. Missing ones are cancelled. -/
structure Answers where
  openPath : Option Text
  savePath : Option Text
  integer : Option Int
  /-- Whether unsaved changes may be lost. -/
  discard : Bool
  deriving DecidableEq, Repr

/-- Every dialog is cancelled. -/
def Answers.cancelled : Answers :=
  ⟨none, none, none, false⟩

end LispEditor
