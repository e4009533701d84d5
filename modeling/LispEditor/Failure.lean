import LispEditor.Json.Integer
import LispEditor.Json.Reader
import LispEditor.Storage.Disk

/-!
# Failures

Most of what goes wrong is told to the user or noted in the log, and work goes on. A failure is what
is left: the command that meets one is given up, and a window that meets one does not open.
-/

namespace LispEditor

/-- Values that lie too deep in each other. -/
inductive NestingError where
  /-- They cannot be read. -/
  | reading (container : JsonContainer)
  /-- They cannot be shown in a message. -/
  | showing
  deriving DecidableEq, Repr

/-- The wording of a nesting error. -/
def NestingError.message : NestingError → String
  | reading container =>
      "maximum recursion depth exceeded while decoding a JSON " ++ container.name
        ++ " from a unicode string"
  | showing => "maximum recursion depth exceeded while getting the repr of an object"

/-- Why a command is given up. -/
inductive Failure where
  /-- A setting that should be a whole number. -/
  | number (error : IntegerError)
  /-- A settings file whose values lie too deep in each other. -/
  | nesting (error : NestingError)
  /-- A path that a disk cannot be asked for. -/
  | file (fault : Fault) (path : Path)
  deriving DecidableEq, Repr

/-- The wording of a failure. -/
def Failure.message : Failure → String
  | number error => error.message
  | nesting error => error.message
  | file fault path => fault.message path

end LispEditor
