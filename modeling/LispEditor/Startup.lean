import LispEditor.Verbosity
import LispEditor.Window.Command

/-!
# Starting up

The program opens one window, with the settings of the user's home directory. The first argument
names a file to load.
-/

namespace LispEditor.Startup

/-- The name of the settings file. -/
def settingsName : String := ".lisppad.json"

/-- The settings file of a home directory. -/
def settingsPath (home : Path) : Path :=
  home.child settingsName.toList

/-- Opens the window of a program that was started with some arguments. -/
def launch (disk : Disk) (home : Path) (arguments : List Text)
    (limits : NestingLimits := .usual) : Except Window.StartError Window :=
  (Window.start disk (settingsPath home) limits).map fun w =>
    match arguments with
    | [] => w
    | file :: _ => (w.load (Path.ofText file)).1

end LispEditor.Startup
