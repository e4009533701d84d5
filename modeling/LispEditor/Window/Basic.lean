import LispEditor.Dialect
import LispEditor.Editor.Command
import LispEditor.Settings
import LispEditor.Window.Dialog

/-!
# Windows

A window shows an editor for one file at a time. It has a title, a status bar, menus, and settings
that are saved whenever one of them changes. The disk it works on is part of it.

Whenever the cursor moves the status bar tells where it is, under the name that the file has at that
moment. Nothing modified is given up without a question.

A path with a null character is the one that cannot even be written to in vain: the command is given
up there, and the window stays as it is at that point.
-/

namespace LispEditor

/-- A window. `log` and `dialogs` are what has come up since they were last looked at. -/
structure Window where
  editor : Editor
  disk : Disk
  settingsPath : Path
  settings : Settings
  currentFile : Option Path
  title : String
  status : String
  palette : Palette
  darkChecked : Bool
  lightChecked : Bool
  wrapChecked : Bool
  /-- The definitions in the menu that jumps to them, once it was opened. -/
  symbols : Option (List (DefinitionKind × List Definition))
  log : List LogEvent
  dialogs : List Dialog

/-- A command that was given up, and the window as it is then. -/
structure Interruption where
  cause : Failure
  window : Window

namespace Window

/-! ### What a window says -/

/-- The name of the program. -/
def programName : String := "LispPad"

/-- The title for a current file. -/
def titleFor : Option Path → String
  | none => programName
  | some path => programName ++ " — " ++ String.ofList path.name

/-- What the status bar says about the cursor. -/
def locationText (file : Option Path) (line column : Nat) : String :=
  let name := match file with
    | none => "Untitled"
    | some path => String.ofList path.text
  name ++ " — " ++ Dialect.name ++ " — Line " ++ line.repr ++ ", Column " ++ column.repr

/-- The style sheet of a window with a palette. -/
def styleSheet (palette : Palette) : String :=
  let ground := "background-color: " ++ palette.background.name ++ ";"
  let both := ground ++ " color: " ++ palette.foreground.name ++ ";"
  let accent := "background: " ++ palette.keyword.name ++ ";"
  "\n" ++ String.join
    ([("QMainWindow", ground), ("QMenuBar", both), ("QMenuBar::item:selected", accent),
      ("QMenu", both), ("QMenu::item:selected", accent), ("QStatusBar", both)].map
      fun (name, rules) => name ++ " \x7b " ++ rules ++ " \x7d\n")

/-- Notes something down. -/
def note (w : Window) (event : LogEvent) : Window :=
  { w with log := w.log ++ [event] }

/-- Shows a dialog. -/
def display (w : Window) (dialog : Dialog) : Window :=
  { w with dialogs := w.dialogs ++ [dialog] }

/-- Makes a file the current one, or none. -/
def setCurrentFile (w : Window) (file : Option Path) : Window :=
  { w with currentFile := file, title := titleFor file }

/-! ### The editor in the window -/

/-- Takes over a changed editor: its log, and in the status bar its cursor, if that has moved. -/
def takeEditor (w : Window) (e : Editor) : Window :=
  { w with
    editor := { e with log := [], document := { e.document with moved := false } }
    log := w.log ++ e.log
    status :=
      if e.document.moved then locationText w.currentFile e.document.line e.document.column
      else w.status }

/-- Changes the editor. -/
def onEditor (w : Window) (change : Editor → Editor) : Window :=
  w.takeEditor (change w.editor)

/-! ### Settings -/

/-- Saves the settings, or says that it cannot. -/
def saveSettings (w : Window) : Except Interruption Window :=
  match w.settings.save w.disk w.settingsPath with
  | .ok disk => .ok { w with disk := disk }
  | .error .nullInName => .error ⟨.file .nullInName w.settingsPath, w⟩
  | .error _ => .ok { w.note .settingsUnsaved with status := "Could not save settings" }

/-- Changes a setting and saves it. -/
def putSetting (w : Window) (key : String) (value : JsonValue) : Except Interruption Window :=
  { w with settings := w.settings.put key value }.saveSettings

/-- Chooses a theme. -/
def setTheme (w : Window) (theme : Theme) : Except Interruption Window :=
  let w := { w with darkChecked := theme == Theme.dark, lightChecked := theme == Theme.light }
  (w.putSetting "theme" (.string theme.name)).map fun w =>
    { w.onEditor (·.setPalette theme.palette) with palette := theme.palette }

/-- Sets the indent width. -/
def setIndentWidth (w : Window) (width : Int) : Except Interruption Window :=
  (w.onEditor (·.setIndentWidth width)).putSetting "indent_width" (.integer width)

/-- Asks for the indent width. -/
def askIndentWidth (w : Window) (answers : Answers) : Except Interruption Window :=
  let w := w.display (.integer "Indent Width" "Columns per nesting level:" w.editor.indentWidth
    Settings.minIndentWidth Settings.maxIndentWidth)
  match answers.integer with
  | some width => w.setIndentWidth width
  | none => .ok w

/-- Keeps the font size that the editor has after a change. -/
def changeFontSize (w : Window) (change : Editor → Editor) : Except Interruption Window :=
  let w := w.onEditor change
  w.putSetting "font_size" (.integer w.editor.fontSize)

/-- Wraps lines, or stops to. -/
def toggleWordWrap (w : Window) : Except Interruption Window :=
  let enabled := !w.wrapChecked
  let w := { w with wrapChecked := enabled }
  (w.onEditor (·.setWordWrap enabled)).putSetting "word_wrap" (.bool enabled)

/-! ### Files -/

/-- Whether changes may be given up: asks if there are any. -/
def mayDiscard (w : Window) (answers : Answers) : Window × Bool :=
  if w.editor.document.modified then
    (w.display (.warning "Unsaved Changes"
      "The document has unsaved changes. Do you want to continue without saving?"),
      answers.discard)
  else (w, true)

/-- Loads a file, and answers whether that went well. -/
def load (w : Window) (path : Path) : Window × Bool :=
  match w.disk.readText path with
  | .error error =>
      ((w.note .fileUnreadable).display (.critical "Open File"
        ("Could not open " ++ String.ofList path.text ++ ":\n" ++ error.message)), false)
  | .ok text => ((w.onEditor (·.setText text)).setCurrentFile (some path), true)

/-- Writes the text to a file, and answers whether that went well. -/
def write (w : Window) (path : Path) : Except Interruption (Window × Bool) :=
  match w.disk.writeText path w.editor.text with
  | .error .nullInName => .error ⟨.file .nullInName path, w⟩
  | .error fault =>
      .ok ((w.note .fileUnsaved).display (.critical "Save File"
        ("Could not save " ++ String.ofList path.text ++ ":\n" ++ fault.message path)), false)
  | .ok disk =>
      .ok ({ w with disk := disk }.onEditor fun e => e.onDocument Document.markSaved, true)

/-- The path that was entered in a file dialog. -/
def chosenPath? (answer : Option Text) : Option Path :=
  (answer.filter fun path => !path.isEmpty).map Path.ofText

/-- Starts a new file. -/
def newFile (w : Window) (answers : Answers) : Window :=
  let (w, may) := w.mayDiscard answers
  if may then (w.onEditor (·.setText [])).setCurrentFile none else w

/-- Asks for a file and loads it. -/
def openFile (w : Window) (answers : Answers) : Window :=
  let (w, may) := w.mayDiscard answers
  if may then
    let w := w.display (.openFile "Open File" Dialect.dialogFilter)
    match chosenPath? answers.openPath with
    | some path => (w.load path).1
    | none => w
  else w

/-- Asks for a file and writes the text to it, which is then the current file. -/
def saveFileAs (w : Window) (answers : Answers) : Except Interruption Window :=
  let w := w.display (.saveFile "Save File As" Dialect.dialogFilter)
  match chosenPath? answers.savePath with
  | some path =>
      (w.write path).map fun (w, written) =>
        if written then w.setCurrentFile (some path) else w
  | none => .ok w

/-- Writes the text to the current file, or asks for one. -/
def saveFile (w : Window) (answers : Answers) : Except Interruption Window :=
  match w.currentFile with
  | some path => (w.write path).map Prod.fst
  | none => w.saveFileAs answers

/-- Asks to close, and answers whether that is agreed to. -/
def close (w : Window) (answers : Answers) : Window × Bool :=
  w.mayDiscard answers

/-! ### Definitions -/

/-- Fills the menu of definitions anew. -/
def openSymbols (w : Window) : Window :=
  { w with symbols := some (Definition.groups w.editor.definitions) }

/-- The definition that an entry of the menu stands for. -/
def symbolAt? (w : Window) (group index : Nat) : Option Definition := do
  let groups ← w.symbols
  let (_, definitions) ← groups[group]?
  definitions[index]?

/-- Jumps to the definition that an entry of the menu stands for. -/
def pickSymbol (w : Window) (group index : Nat) : Window :=
  match w.symbolAt? group index with
  | some definition => w.onEditor (·.gotoOffset definition.position)
  | none => w

/-! ### Opening a window -/

/-- Why a window cannot be opened, and what was noted down before. -/
structure StartError where
  cause : Failure
  log : List LogEvent
  deriving DecidableEq, Repr

/-- A window with given settings. -/
def ofSettings (disk : Disk) (settingsPath : Path) (settings : Settings) (log : List LogEvent) :
    Except IntegerError Window :=
  let theme := settings.theme
  ((Editor.new theme.palette settings.indentWidth).setFontSizeFrom settings.fontSize).map
    fun editor =>
      { editor := editor.setWordWrap settings.wordWrap
        disk := disk
        settingsPath := settingsPath
        settings := settings
        currentFile := none
        title := titleFor none
        status := ""
        palette := theme.palette
        darkChecked := theme == Theme.dark
        lightChecked := theme == Theme.light
        wrapChecked := settings.wordWrap
        symbols := none
        log := log
        dialogs := [] }

/-- Opens a window with the settings in the file at a path. -/
def start (disk : Disk) (settingsPath : Path) (limits : NestingLimits := .usual) :
    Except StartError Window :=
  match Settings.load disk settingsPath limits with
  | .error cause => .error ⟨cause, []⟩
  | .ok (settings, log) =>
      (ofSettings disk settingsPath settings log).mapError fun error => ⟨.number error, log⟩

/-- Forgets what has come up so far. -/
def drain (w : Window) : Window :=
  { w with log := [], dialogs := [] }

end Window

end LispEditor
