import LispEditor.Colour.Rule
import LispEditor.Text.Utf16

/-!
# Coloured lines

A text is coloured line by line. A line is told whether it begins inside a string and tells the
next one whether it ends inside one. The rules are painted first, in order; strings, comments and
literals are painted over them.
-/

namespace LispEditor

/-- A line with the style of each character, where it has one, and whether the line ends inside a
string. -/
structure ColouredLine where
  cells : List (Char × Option Style)
  endsInString : Bool
  deriving DecidableEq, Repr

namespace ColouredLine

/-- Whether an offset lies in an extent. -/
def covers (extent : Extent) (offset : Nat) : Bool :=
  decide (extent.start ≤ offset ∧ offset < extent.stop)

/-- Styles with one more style painted over some extents. -/
def paint (style : Style) (extents : List Extent) (styles : List (Option Style)) :
    List (Option Style) :=
  styles.mapIdx fun offset old => if extents.any (covers · offset) then some style else old

/-- The styles that the rules give a line. -/
def ruleStyles (palette : Palette) (line : Text) : List (Option Style) :=
  ColourRule.all.foldl (fun styles rule => paint (rule.style palette) (rule.extents line) styles)
    (line.map fun _ => none)

/-- The style of characters that are no code, which goes over everything else. -/
def kindStyle? (palette : Palette) : Kind → Option Style
  | .code => none
  | .string => some (.plain palette.string)
  | .comment => some ⟨palette.comment, false, true, false⟩
  | .literal => some (.plain palette.constant)

/-- Colours a line that begins inside a string when `inString` says so. -/
def ofLine (palette : Palette) (inString : Bool) (line : Text) : ColouredLine :=
  let s := Snapshot.scan line inString
  let coloured (cell : Cell) (style : Option Style) : Char × Option Style :=
    (cell.char, (kindStyle? palette cell.kind).orElse fun _ => style)
  ⟨s.cells.zipWith coloured (ruleStyles palette line), s.endsInString⟩

/-- Colours lines one after the other, of which the first begins as `inString` says. -/
def ofLines (palette : Palette) (inString : Bool) : List Text → List ColouredLine
  | [] => []
  | line :: rest =>
      let coloured := ofLine palette inString line
      coloured :: ofLines palette coloured.endsInString rest

/-- Colours a text. -/
def ofText (palette : Palette) (text : Text) : List ColouredLine :=
  ofLines palette false (Text.lines text)

/-- The state that a line leaves to the next one: 1 inside a string, 0 elsewhere. -/
def state (line : ColouredLine) : Nat :=
  if line.endsInString then 1 else 0

/-! ### Runs -/

/-- A longest part of a line in one style, in UTF-16 units. -/
structure Run where
  start : Nat
  length : Nat
  style : Style
  deriving DecidableEq, Repr

/-- The runs of some cells of which the first is at `position`. -/
def runsFrom (position : Nat) : List (Char × Option Style) → List Run
  | [] => []
  | (c, style) :: rest =>
      let units := Text.unitsOf c
      let others := runsFrom (position + units) rest
      match style, others with
      | none, _ => others
      | some style, [] => [⟨position, units, style⟩]
      | some style, run :: more =>
          if run.start == position + units && run.style == style then
            ⟨position, units + run.length, style⟩ :: more
          else ⟨position, units, style⟩ :: others

/-- The runs of a line, in order. -/
def runs (line : ColouredLine) : List Run :=
  runsFrom 0 line.cells

end ColouredLine

end LispEditor
