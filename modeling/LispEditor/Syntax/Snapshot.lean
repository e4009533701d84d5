import LispEditor.Syntax.Token

/-!
# Snapshots

A snapshot is the text of a buffer in which every character carries its kind, together with the
spans of its strings. `ofText` scans a text. `replaceBlank` splices blanks into a snapshot without
a new scan: the kinds of all other characters stay, and the spans behind the edit move.

A splice that hits more than blanks is carried out as it is asked for. The spans may then overlap
or stand out of order, so look-up among them is a binary search that presumes nothing.
-/

namespace LispEditor

/-- A character with its kind. -/
structure Cell where
  char : Char
  kind : Kind
  deriving DecidableEq, Repr

/-- The extent of a string, without `stop`. -/
structure Span where
  start : Int
  stop : Int
  deriving DecidableEq, Repr

/-- A span moved by some distance. -/
def Span.shift (span : Span) (distance : Int) : Span :=
  ⟨span.start + distance, span.stop + distance⟩

/-- A buffer text with the kind of each character and the spans of the strings in it. -/
structure Snapshot where
  cells : List Cell
  strings : List Span
  endsInString : Bool
  deriving DecidableEq, Repr

/-- The characters of a token with their kind. -/
def Token.cells (token : Token) : List Cell :=
  token.text.map fun char => ⟨char, token.kind⟩

theorem Token.map_char_cells (token : Token) : token.cells.map Cell.char = token.text := by
  simp [Token.cells, Function.comp_def]

/-- The spans of the strings among tokens of which the first begins at `offset`. -/
def Token.stringSpans : Nat → List Token → List Span
  | _, [] => []
  | offset, token :: rest =>
      let after := offset + token.text.length
      match token with
      | .string _ _ => ⟨offset, after⟩ :: stringSpans after rest
      | _ => stringSpans after rest

/-- Where a binary search ends that goes right at the items `goesRight` holds of. In a list with all
such items in front it is their number. -/
def partitionPoint {α : Type} (goesRight : α → Bool) (items : List α) : Nat :=
  search 0 items.length
where
  /-- Narrows `[low, high)` until it is empty. -/
  search (low high : Nat) : Nat :=
    if low < high then
      let middle := (low + high) / 2
      match items[middle]? with
      | some item => if goesRight item then search (middle + 1) high else search low middle
      | none => low
    else low
  termination_by high - low

namespace Snapshot

/-- The snapshot that some tokens make up. -/
def ofTokens (tokens : List Token) : Snapshot where
  cells := tokens.flatMap Token.cells
  strings := Token.stringSpans 0 tokens
  endsInString := Token.endInString tokens

/-- Scans a text that begins inside a string when `inString` says so. -/
def scan (text : Text) (inString : Bool) : Snapshot :=
  ofTokens (Token.scan text inString)

/-- Scans a text that begins in code. -/
def ofText (text : Text) : Snapshot :=
  scan text false

/-- The characters of a snapshot. -/
def text (s : Snapshot) : Text :=
  s.cells.map Cell.char

/-- The kinds of its characters. -/
def kinds (s : Snapshot) : List Kind :=
  s.cells.map Cell.kind

/-- How many characters a snapshot has. -/
def size (s : Snapshot) : Nat :=
  s.cells.length

/-- There is one kind for each character. -/
@[simp]
theorem length_text (s : Snapshot) : s.text.length = s.size := by
  simp [text, size]

/-- A snapshot of a text holds the text. -/
@[simp]
theorem text_scan (t : Text) (inString : Bool) : (scan t inString).text = t := by
  have whole := Token.flatMap_text_scan t inString
  simp only [text, scan, ofTokens, List.map_flatMap, Token.map_char_cells]
  exact whole

theorem size_scan (t : Text) (inString : Bool) : (scan t inString).size = t.length := by
  rw [← length_text, text_scan]

/-- The offset of the snapshot nearest to `offset`. -/
def clamp (s : Snapshot) (offset : Int) : Nat :=
  Text.clamp s.size offset

/-- The cells before `offset`, nearest first. -/
def cellsBefore (s : Snapshot) (offset : Nat) : List Cell :=
  (s.cells.take offset).reverse

/-- The cells at `offset` and behind it. -/
def cellsFrom (s : Snapshot) (offset : Nat) : List Cell :=
  s.cells.drop offset

/-- The cell at `offset`, if the offset lies in the snapshot. -/
def cellAt? (s : Snapshot) (offset : Int) : Option Cell :=
  if 0 ≤ offset then s.cells[offset.toNat]? else none

/-- The kind of the character at `offset`; offsets `-size .. -1` count from the end. -/
def kindAt? (s : Snapshot) (offset : Int) : Option Kind :=
  let offset := if offset < 0 then offset + s.size else offset
  (s.cellAt? offset).map Cell.kind

/-- Replaces the blanks `[start, stop)` by `blank`, which becomes code. The strings that begin at
`stop` or behind it move along. -/
def replaceBlank (s : Snapshot) (start stop : Int) (blank : Text) : Snapshot :=
  let distance := blank.length - (stop - start)
  let before := partitionPoint (fun span => decide (span.start < stop)) s.strings
  { cells := Text.splice s.cells start stop (blank.map fun char => ⟨char, .code⟩)
    strings := s.strings.take before ++ (s.strings.drop before).map (·.shift distance)
    endsInString := s.endsInString }

/-- The span of the string that `offset` lies in, its quotes included. -/
def stringSpan? (s : Snapshot) (offset : Int) : Option Span :=
  match partitionPoint (fun span => decide (span.start ≤ offset)) s.strings with
  | 0 => none
  | after + 1 => s.strings[after]?.filter fun span => decide (offset < span.stop)

/-- Whether a span is that of the string which the text ends in. -/
def isOpenString (s : Snapshot) (span : Span) : Bool :=
  s.endsInString && s.strings.getLast? == some span

end Snapshot

end LispEditor
