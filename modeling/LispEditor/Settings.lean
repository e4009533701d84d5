import LispEditor.Colour.Palette
import LispEditor.Failure
import LispEditor.Indent.Advice
import LispEditor.Json.Printer

/-!
# Settings

What the user has chosen is kept in a file that holds one JSON object. Its members go over the
defaults, and members nobody knows are kept. A file that cannot be used is noted in the log, and the
defaults are used.

Only the indent width is checked: one that makes no sense gives way to the default. An infinite one
is a failure, though, and so are values too deep in each other and a path that the disk does not let
anyone ask for. How deep values may lie in each other depends on the machine.
-/

namespace LispEditor

/-- How deep values may lie in each other on a machine. -/
structure NestingLimits where
  /-- The most containers in each other that are read inside the outermost one. -/
  reading : Nat
  /-- The most values in each other that can be shown in the log, if warnings are shown there. -/
  showing : Option Nat
  deriving DecidableEq, Repr

namespace NestingLimits

/-- The limits where a thousand calls may lie in each other, less those around the reading and the
showing. -/
def usual : NestingLimits := ⟨987, some 985⟩

/-- Whether a value is shown, or need not be. -/
def permits (limits : NestingLimits) (value : JsonValue) : Bool :=
  limits.showing.all fun most => decide (value.height ≤ most)

end NestingLimits

/-- Settings by their names, in order. -/
abbrev Settings := JsonMembers

namespace Settings

/-- The least indent width. -/
def minIndentWidth : Int := 1

/-- The greatest indent width. -/
def maxIndentWidth : Int := 8

/-- The font size where none is set. -/
def defaultFontSize : Int := 13

/-- The settings of a first start. -/
def defaults : Settings :=
  [("theme", .string Theme.dark.name), ("font_size", .integer defaultFontSize),
   ("word_wrap", .bool true), ("indent_width", .integer defaultIndentWidth)]

/-! ### The single settings -/

/-- A value as an indent width, with what there is to note about it. -/
def toIndentWidth (value : JsonValue) : Except IntegerError (Int × List LogEvent) :=
  match value.toInteger with
  | .error .infinite => .error .infinite
  | .error _ => .ok (defaultIndentWidth, [.widthInvalid])
  | .ok width =>
      if minIndentWidth ≤ width ∧ width ≤ maxIndentWidth then .ok (width, [])
      else .ok (defaultIndentWidth, [.widthOutOfRange])

/-- A value as a theme: anything but the name of the light one is the dark one. -/
def toTheme : JsonValue → Theme
  | .string name => .ofName name
  | _ => .dark

/-- The chosen theme. -/
def theme (settings : Settings) : Theme :=
  ((settings.get? "theme").map toTheme).getD .dark

/-- The chosen font size, as it was given. -/
def fontSize (settings : Settings) : JsonValue :=
  (settings.get? "font_size").getD (.integer defaultFontSize)

/-- Whether lines are wrapped. -/
def wordWrap (settings : Settings) : Bool :=
  ((settings.get? "word_wrap").map JsonValue.isTruthy).getD true

/-- The indent width, which loaded settings hold as a whole number. -/
def indentWidth (settings : Settings) : Int :=
  match settings.get? "indent_width" with
  | some (.integer width) => width
  | _ => defaultIndentWidth

/-! ### Loading and saving -/

/-- The settings that the members of a file make, with what there is to note about them. The note about
an indent width that is no number shows what it is instead. -/
def ofMembers (limits : NestingLimits) (members : JsonMembers) :
    Except Failure (Settings × List LogEvent) :=
  let settings := defaults.update members
  let given := (settings.get? "indent_width").getD (.integer defaultIndentWidth)
  match toIndentWidth given with
  | .error error => .error (.number error)
  | .ok (width, log) =>
      if log.contains .widthInvalid && !limits.permits given then .error (.nesting .showing)
      else .ok (settings.put "indent_width" (.integer width), log)

/-- The settings in the text of a file, with what there is to note about it. -/
def ofText (limits : NestingLimits) (text : Text) : Except Failure (Settings × List LogEvent) :=
  match JsonValue.read (limits.reading + 1) text with
  | .error .malformed => .ok (defaults, [.settingsUnreadable])
  | .error (.tooDeep container) => .error (.nesting (.reading container))
  | .ok (.object members) => ofMembers limits members
  | .ok _ => .ok (defaults, [.settingsNotObject])

/-- Loads the settings in the file at a path, with what there is to note about it. -/
def load (disk : Disk) (path : Path) (limits : NestingLimits := .usual) :
    Except Failure (Settings × List LogEvent) :=
  match disk.contains path with
  | .error fault => .error (.file fault path)
  | .ok false => .ok (defaults, [])
  | .ok true =>
      match disk.readText path with
      | .error _ => .ok (defaults, [.settingsUnreadable])
      | .ok text => ofText limits text

/-- Saves settings in the file at a path. -/
def save (settings : Settings) (disk : Disk) (path : Path) : Except Fault Disk :=
  disk.writeText path (JsonValue.object settings).text

end Settings

end LispEditor
