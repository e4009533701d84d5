import LispEditor.Colour.Line
import LispEditor.Definition
import LispEditor.Editor.Document
import LispEditor.Indent.Newline
import LispEditor.Indent.Region
import LispEditor.Json.Integer

/-!
# Editors

An editor holds a document and knows how to indent it. What it does to the document is computed on
the whole text by the functions on texts; it then replaces only the lines that can have changed, and
puts the cursor where those functions say.
-/

namespace LispEditor

/-- A document with the means to edit it. -/
structure Editor where
  document : Document
  indentWidth : Int
  fontSize : Int
  wordWrap : Bool
  palette : Palette
  log : List LogEvent
  deriving DecidableEq, Repr

namespace Editor

/-- The font size of a new editor. -/
def defaultFontSize : Int := 11

/-- An editor without text. -/
def new (palette : Palette) (indentWidth : Int) : Editor :=
  ⟨.empty, indentWidth, defaultFontSize, true, palette, []⟩

/-- The text that the document shows. -/
def text (e : Editor) : Text :=
  e.document.text

/-- An editor with its document changed. -/
def onDocument (e : Editor) (change : Document → Document) : Editor :=
  { e with document := change e.document }

/-- Gives the editor a new text. -/
def setText (e : Editor) (text : Text) : Editor :=
  { e with document := .setText text }

/-- The definitions of the text. -/
def definitions (e : Editor) : List Definition :=
  Definition.ofText e.text

/-- Puts the cursor at an offset. -/
def gotoOffset (e : Editor) (offset : Int) : Editor :=
  e.onDocument fun d => d.place (Text.utf16Position d.text offset)

/-- The coloured blocks of the document. -/
def colouredLines (e : Editor) : List ColouredLine :=
  ColouredLine.ofText e.palette e.document.held

/-! ### Looks -/

/-- The least font size. -/
def minFontSize : Int := 6

/-- The greatest font size. -/
def maxFontSize : Int := 72

/-- Sets the font size, within its bounds. -/
def setFontSize (e : Editor) (size : Int) : Editor :=
  { e with fontSize := max minFontSize (min maxFontSize size) }

/-- Sets the font size to a value that should be a whole number. -/
def setFontSizeFrom (e : Editor) (size : JsonValue) : Except IntegerError Editor :=
  size.toInteger.map e.setFontSize

/-- Changes the font size. -/
def adjustFontSize (e : Editor) (delta : Int) : Editor :=
  e.setFontSize (e.fontSize + delta)

/-- Sets the font size of a new editor. -/
def resetFontSize (e : Editor) : Editor :=
  e.setFontSize defaultFontSize

/-- Sets whether lines are wrapped. -/
def setWordWrap (e : Editor) (enabled : Bool) : Editor :=
  { e with wordWrap := enabled }

/-- Sets the indent width. -/
def setIndentWidth (e : Editor) (width : Int) : Editor :=
  { e with indentWidth := width }

/-- Sets the palette. -/
def setPalette (e : Editor) (palette : Palette) : Editor :=
  { e with palette := palette }

/-! ### Indentation -/

/-- Re-indents the line at which the block of the cursor starts. -/
def reindentLine (e : Editor) : Editor :=
  let text := e.text
  let edit :=
    indentLine text e.document.blockStart (some (e.document.offset : Int)) e.indentWidth
  e.onDocument fun d =>
    let d := if edit.changed then d.replaceOffsets edit.start edit.stop edit.indent else d
    d.place (Text.utf16Position (edit.apply text) edit.cursor)

/-- Selects the characters `[first, last)` and replaces them by those of `newText` from `first` on,
up to `last` moved by the difference in length, unless the document holds just these. Answers the
cursor with which this was done, too: it still has the selection if nothing was replaced. -/
def replaceLines (d : Document) (first last : Int) (newText : Text) : Document × Cursor :=
  let newLast := last + (newText.length - d.text.length)
  let replacement := Text.slice newText first newLast
  let start := Text.utf16Position d.text first
  let stop := Text.utf16Position d.text last
  if Text.slice d.held first last == replacement then (d, ⟨stop, start⟩)
  else (d.replace start stop replacement, .ofPosition (start + Text.utf16Length replacement))

/-- Re-indents the lines between `start` and `stop`, and replaces those in `[first, last)`. Further
lines that were re-indented stay as they are, and the cursor may then belong outside the document. -/
def reindentRange (e : Editor) (first last start stop : Int) : Editor :=
  let (newText, cursor) :=
    indentRegion e.text start stop (some (e.document.offset : Int)) e.indentWidth
  let e := e.onDocument fun d =>
    let (d, working) := replaceLines d first last newText
    d.placeFrom working (Text.utf16Position newText cursor)
  { e with log := e.log ++ [.reindented] }

/-- Re-indents the lines that the selection touches, or the line of the cursor. -/
def reindentSelection (e : Editor) : Editor :=
  if e.document.hasSelection then
    let start := e.document.offsetOf e.document.selectionStart
    let stop := e.document.offsetOf e.document.selectionStop
    let (first, last) := Text.lineBounds e.text start stop
    e.reindentRange first last start stop
  else e.reindentLine

/-- Re-indents all lines. -/
def reindent (e : Editor) : Editor :=
  e.reindentRange 0 e.text.length 0 e.text.length

/-- Replaces the selection by a line break and indents the new line. -/
def newline (e : Editor) : Editor :=
  let start := e.document.selectionStart
  e.onDocument fun d =>
    let d := d.removeSelection
    let text := d.text
    let offset := d.offsetOf start
    let (newText, cursor) := newlineAndIndent text offset e.indentWidth
    let (first, last) := Text.lineBounds text offset offset
    let newLast := last + (newText.length - text.length)
    (d.replaceOffsets first last (Text.slice newText first newLast)).place
      (Text.utf16Position newText cursor)

end Editor

end LispEditor
