/-!
# Log events

What the editor notes down while it works. An event has a level and a template, which is the
message before its particulars are filled in.
-/

namespace LispEditor

/-- How much a log event matters. -/
inductive LogLevel where
  | debug
  | warning
  deriving DecidableEq, Repr

/-- The written name of a level. -/
def LogLevel.name : LogLevel → String
  | debug => "DEBUG"
  | warning => "WARNING"

/-- Something worth noting down. -/
inductive LogEvent where
  | noIndentRule
  | reindented
  | widthInvalid
  | widthOutOfRange
  | settingsUnreadable
  | settingsNotObject
  | settingsUnsaved
  | fileUnreadable
  | fileUnsaved
  deriving DecidableEq, Repr

namespace LogEvent

/-- What is merely traced is for debugging, and a request that could not be met is a warning. -/
def level : LogEvent → LogLevel
  | noIndentRule | reindented => .debug
  | _ => .warning

/-- The message, with places for its particulars. -/
def template : LogEvent → String
  | noIndentRule => "No indentation rule for %r at offset %d"
  | reindented => "Re-indented offsets %d..%d"
  | widthInvalid => "Ignoring invalid indent width %r"
  | widthOutOfRange => "Indent width %d out of range, using %d"
  | settingsUnreadable => "Could not read settings from %s: %s"
  | settingsNotObject => "Settings file %s does not hold an object, using defaults"
  | settingsUnsaved => "Could not save settings to %s: %s"
  | fileUnreadable => "Could not open %s: %s"
  | fileUnsaved => "Could not save %s: %s"

end LogEvent

end LispEditor
