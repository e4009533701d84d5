import LispEditor.Startup

/-!
# The program

Opens a window from the command line and prints what it shows. Files are read before the window is
opened and put on the disk that the window works on.
-/

namespace LispEditor.Startup

/-- Puts a file on a disk, in a directory that is made for it. -/
def addFile (disk : Disk) (path : Path) (bytes : List UInt8) : Disk :=
  let disk := disk.makeDirectory path.parent
  (disk.write path bytes).toOption.getD disk

/-- Puts a file on a disk that cannot be read. -/
def addClosedFile (disk : Disk) (path : Path) (refusal : Refusal) : Disk :=
  let disk := addFile disk path []
  match disk.locate path with
  | .ok location => disk.bar location (.closed refusal)
  | .error _ => disk

/-- Puts on a disk what the machine has at a path. -/
def mount (disk : Disk) (path : Path) : IO Disk := do
  try
    let bytes ← IO.FS.readBinFile (String.ofList path.text)
    return addFile disk path bytes.toList
  catch
    | .noFileOrDirectory .. => return disk
    | .permissionDenied _ code details => return addClosedFile disk path ⟨code.toNat, details⟩
    | .hardwareFault code details => return addClosedFile disk path ⟨code.toNat, details⟩
    | _ => return disk.makeDirectory path

/-- Prints a window: its title, its messages, its text and its status. -/
def printWindow (w : Window) : IO Unit := do
  IO.println w.title
  for dialog in w.dialogs do
    if let .critical title text := dialog then IO.eprintln (title ++ ": " ++ text)
  IO.println (String.ofList w.editor.text)
  IO.println w.status

/-- Runs the program. -/
def run (arguments : List String) : IO UInt32 := do
  let level := Verbosity.ofName (← IO.getEnv "LISPPAD_LOG_LEVEL")
  let home := Path.ofText ((← IO.getEnv "HOME").getD "/").toList
  let arguments := arguments.map String.toList
  let mut disk ← mount .empty (settingsPath home)
  for file in arguments.take 1 do
    disk ← mount disk (Path.ofText file)
  match launch disk home arguments with
  | .error error =>
      IO.eprintln error.cause.message
      return 1
  | .ok w =>
      for event in w.log do
        if Verbosity.shows level event then
          IO.eprintln (event.level.name ++ ": " ++ event.template)
      printWindow w
      return 0

end LispEditor.Startup

/-- The entry point. -/
def main (arguments : List String) : IO UInt32 :=
  LispEditor.Startup.run arguments
