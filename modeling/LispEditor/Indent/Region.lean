import LispEditor.Indent.Edit
import LispEditor.Indent.OpenGroups

/-!
# Re-indenting a region

The lines that a region touches are re-indented from top to bottom, each against the lines above it
as they are by then. The text is scanned once: every edit is spliced into the snapshot, and the
open groups are carried from line to line. A line that only begins where the region ends is not
touched.
-/

namespace LispEditor

/-- A pass through a region: what it has made of the text so far, the cursor, and where the region
now ends. -/
structure RegionPass where
  snapshot : Snapshot
  groups : OpenGroups
  cursor : Int
  stop : Int
  deriving DecidableEq, Repr

namespace RegionPass

/-- The groups once the line at `start` is reached. A line that begins in a string does not ask for
them. -/
def groupsAt (pass : RegionPass) (start : Nat) : OpenGroups :=
  if pass.snapshot.inString start then pass.groups else pass.groups.advance pass.snapshot start

/-- The edit for the line that starts at `start`. -/
def edit (pass : RegionPass) (start : Nat) (width : Int) : IndentEdit :=
  let opener := (pass.groupsAt start).innermost?.map Int.ofNat
  pass.snapshot.indentEdit start (pass.snapshot.adviseInside opener start width) pass.cursor

/-- Re-indents the line that starts at `start`. -/
def visit (pass : RegionPass) (start : Nat) (width : Int) : RegionPass :=
  let edit := pass.edit start width
  { snapshot :=
      if edit.changed then pass.snapshot.replaceBlank edit.start edit.stop edit.indent
      else pass.snapshot
    groups := pass.groupsAt start
    cursor := edit.cursor
    stop := if pass.stop > edit.stop then pass.stop + edit.delta else pass.stop }

/-- Where the line behind the one at `start` begins, if that is still inside the region. -/
def nextLine? (pass : RegionPass) (start : Nat) : Option Nat :=
  ((Text.newlineFrom pass.snapshot.text start).map (· + 1)).filter fun next =>
    decide ((next : Int) < pass.stop)

/-- Re-indents the line that starts at `start` and those behind it, at most `further` of them. -/
def run (width : Int) (further : Nat) (pass : RegionPass) (start : Nat) : RegionPass :=
  let pass := pass.visit start width
  match further, pass.nextLine? start with
  | further + 1, some next => run width further pass next
  | _, _ => pass

end RegionPass

/-- Re-indents the lines between `start` and `stop`, in whichever order these are given. Without a
cursor of its own, the cursor is taken to be at `start`. Answers the new text and cursor. -/
def indentRegion (text : Text) (start stop : Int) (cursor : Option Int) (width : Int) :
    Text × Int :=
  let s := Snapshot.ofText text
  let pass : RegionPass := ⟨s, .empty, cursor.getD start, max start stop⟩
  -- No edit adds a newline, so there are never more lines ahead than newlines.
  let done := pass.run width (text.count '\n') (s.lineStart (min start stop))
  (done.snapshot.text, done.cursor)

end LispEditor
