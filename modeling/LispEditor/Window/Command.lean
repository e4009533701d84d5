import LispEditor.Window.Basic

/-!
# Commands to a window

Everything that a user can do in a window. A run is a list of commands, each with the answers to the
dialogs it leads to.
-/

namespace LispEditor

/-- What a user can do in a window. -/
inductive WindowCommand where
  | edit (command : EditorCommand)
  | newFile
  | openFile
  | saveFile
  | saveFileAs
  | close
  | load (path : Path)
  | increaseFont
  | decreaseFont
  | resetFont
  | toggleWordWrap
  | setTheme (theme : Theme)
  | askIndentWidth
  | setIndentWidth (width : Int)
  | openSymbols
  | pickSymbol (group index : Nat)

namespace Window

/-- The window after a command. -/
def perform (w : Window) (answers : Answers) : WindowCommand → Except Interruption Window
  | .edit command =>
      match w.editor.perform command with
      | .ok editor => .ok (w.takeEditor editor)
      | .error error => .error ⟨.number error, w⟩
  | .newFile => .ok (w.newFile answers)
  | .openFile => .ok (w.openFile answers)
  | .saveFile => w.saveFile answers
  | .saveFileAs => w.saveFileAs answers
  | .close => .ok (w.close answers).1
  | .load path => .ok (w.load path).1
  | .increaseFont => w.changeFontSize (·.adjustFontSize 1)
  | .decreaseFont => w.changeFontSize (·.adjustFontSize (-1))
  | .resetFont => w.changeFontSize Editor.resetFontSize
  | .toggleWordWrap => w.toggleWordWrap
  | .setTheme theme => w.setTheme theme
  | .askIndentWidth => w.askIndentWidth answers
  | .setIndentWidth width => w.setIndentWidth width
  | .openSymbols => .ok w.openSymbols
  | .pickSymbol group index => .ok (w.pickSymbol group index)

/-- The window after some commands. The next one finds the window as the one before left it, given
up or not. -/
def run (w : Window) : List (WindowCommand × Answers) → Window
  | [] => w
  | (command, answers) :: rest =>
      match w.perform answers command with
      | .ok after => after.run rest
      | .error interruption => interruption.window.run rest

end Window

end LispEditor
