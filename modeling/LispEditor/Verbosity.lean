import LispEditor.Log

/-!
# Verbosity

How much of the log is shown is chosen by the name of a level. A name that is not known means the
level of warnings, and so does no name at all.
-/

namespace LispEditor.Verbosity

/-- The levels by their names. -/
def levels : List (String × Nat) :=
  [("CRITICAL", 50), ("FATAL", 50), ("ERROR", 40), ("WARN", 30), ("WARNING", 30), ("INFO", 20),
   ("DEBUG", 10), ("NOTSET", 0)]

/-- The level of warnings. -/
def warning : Nat := 30

/-- The upper case of a letter, as far as it occurs in the name of a level: that of the dotless i
and of the long s does too. -/
def upper (c : Char) : Char :=
  if c == 'ı' then 'I' else if c == 'ſ' then 'S' else c.toUpper

/-- The level that a name chooses, in upper or lower case. -/
def ofName (name : Option String) : Nat :=
  match name with
  | none => warning
  | some name => (levels.lookup (String.ofList (name.toList.map upper))).getD warning

/-- Whether an event is shown at a level: it matters at least as much. -/
def shows (level : Nat) (event : LogEvent) : Bool :=
  decide (level ≤ ofName (some event.level.name))

end LispEditor.Verbosity
