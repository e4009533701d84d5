import Mathlib.Logic.Relation
import LispEditor.Proofs.RegionRescan

/-!
# What re-indenting a region keeps

Re-indenting changes blanks at the start of lines that begin in code, and nothing else. So the
program that the text spells is the same: `SameProgram` lists what that means for the scan of a
text, from the cells of everything but those blanks to the lines that begin inside strings.

* `Reindents`: one line gets other blanks.
* `Faithful.reindents_run`: a run is a sequence of such steps.
* `SameProgram.of_reindents`: one step keeps the program, hence
  `indentRegion_sameProgram`: so does a region pass, whatever its bounds, cursor and width.
-/

namespace LispEditor

/-! ### Texts that differ in the blanks of a line -/

/-- One line that begins in code gets other blanks. -/
inductive Reindents : Text → Text → Prop where
  | line {a old new b : Text} (ends : Text.EndsLine a) (inCode : Mode.code.after a = .code)
      (blanks : ∀ c ∈ old, isIndentation c = true) (blanks' : ∀ c ∈ new, isIndentation c = true) :
      Reindents (a ++ old ++ b) (a ++ new ++ b)

namespace RegionPass

/-- A visit gives its line other blanks, or leaves the text. -/
theorem Faithful.reindents_visit {pass : RegionPass} {a rest : Text}
    (faithful : pass.Faithful a rest) (ends : Text.EndsLine a) (width : Int) :
    Relation.ReflTransGen Reindents (a ++ rest) (pass.visit a.length width).snapshot.text := by
  have pieces : a ++ rest = a ++ rest.takeWhile isIndentation ++ rest.dropWhile isIndentation := by
    rw [List.append_assoc, List.takeWhile_append_dropWhile]
  have blanks' := faithful.isIndentation_of_mem_indent ends width
  rw [(faithful.visit ends width).text_eq, ← List.append_assoc]
  cases inside : (Mode.code.after a).inString with
  | true =>
      have inString : pass.snapshot.inString a.length = true := by rw [faithful.inString_eq, inside]
      rw [faithful.edit_eq_indentEdit ends,
        Snapshot.indentEdit_of_inside faithful.text_eq ends inString, ← pieces]
  | false =>
      conv => lhs; rw [pieces]
      exact .single (.line ends (Mode.after_eq_code ends inside) (fun c => List.mem_takeWhile_imp)
        blanks')

/-- **A run is a sequence of steps that each give one line other blanks.** -/
theorem Faithful.reindents_run {pass : RegionPass} {a rest : Text}
    (faithful : pass.Faithful a rest) (ends : Text.EndsLine a) (width : Int) (further : Nat) :
    Relation.ReflTransGen Reindents (a ++ rest) (pass.run width further a.length).snapshot.text := by
  induction further generalizing pass a rest with
  | zero =>
      have only : pass.run width 0 a.length = pass.visit a.length width := by
        unfold run
        rfl
      rw [only]
      exact faithful.reindents_visit ends width
  | succ further ih =>
      have first := faithful.reindents_visit ends width
      cases leads : (pass.visit a.length width).nextLine? a.length with
      | none =>
          rw [run_last leads]
          exact first
      | some next =>
          obtain ⟨line, below, -, -, rfl, -, known⟩ := faithful.of_nextLine? ends leads
          rw [known.text_eq] at first
          rw [run_next leads]
          exact first.trans (ih known (Text.endsLine_append_newline _))

end RegionPass

/-! ### The cells that are not indentation -/

/-- Cells without the code blanks at the start of each line; `atStart` says whether the cells begin
with, or in, the blanks at the start of a line. -/
def contentFrom (atStart : Bool) : List Cell → List Cell
  | [] => []
  | cell :: rest =>
      if atStart && isIndentation cell.char then
        if cell.isCode then contentFrom true rest else cell :: contentFrom true rest
      else cell :: contentFrom (cell.char == '\n') rest

/-- The cells of a snapshot without the code blanks at the start of each line. -/
def Snapshot.content (s : Snapshot) : List Cell :=
  contentFrom true s.cells

/-- Behind a newline the deletion begins again. -/
theorem contentFrom_append_newline (atStart : Bool) (cells : List Cell) (kind : Kind)
    (rest : List Cell) :
    contentFrom atStart (cells ++ [⟨'\n', kind⟩] ++ rest) =
      contentFrom atStart (cells ++ [⟨'\n', kind⟩]) ++ contentFrom true rest := by
  induction cells generalizing atStart with
  | nil =>
      have noBlank : isIndentation '\n' = false := rfl
      simp [contentFrom, noBlank]
  | cons cell cells ih =>
      simp only [List.cons_append, contentFrom] at ih ⊢
      split
      · split
        · exact ih true
        · rw [ih true]
          rfl
      · rw [ih]
        rfl

theorem contentFrom_append {a : Text} (ends : Text.EndsLine a) (mode : Mode) (rest : List Cell) :
    contentFrom true (mode.cells a ++ rest) =
      contentFrom true (mode.cells a) ++ contentFrom true rest := by
  rcases ends.cases with rfl | ⟨init, rfl⟩
  · rfl
  · rw [Mode.cells_append]
    exact contentFrom_append_newline true _ _ _

/-- Code blanks at the start of a line are deleted. -/
theorem contentFrom_blanks {blanks : Text} (old : ∀ c ∈ blanks, isIndentation c = true)
    (rest : List Cell) :
    contentFrom true ((blanks.map fun c => ⟨c, .code⟩) ++ rest) = contentFrom true rest := by
  induction blanks with
  | nil => rfl
  | cons c blanks ih =>
      have blank := old c List.mem_cons_self
      have code : (⟨c, .code⟩ : Cell).isCode = true := rfl
      simp only [List.map_cons, List.cons_append, contentFrom, blank, code, Bool.and_self, if_true]
      exact ih fun d member => old d (List.mem_cons_of_mem c member)

/-! ### The texts of the strings -/

/-- The strings of a snapshot, their quotes included. -/
def Snapshot.stringTexts (s : Snapshot) : List Text :=
  s.strings.map fun span => Text.slice s.text span.start span.stop

theorem Text.resolve_of_nonneg (size : Nat) {offset : Int} (nonneg : 0 ≤ offset) :
    Text.resolve size offset = min offset.toNat size := by
  rw [Text.resolve, if_neg (Int.not_lt.mpr nonneg)]
  rfl

/-- A slice of the first piece of a text. -/
theorem Text.slice_left (a b : Text) {start stop : Int} (nonneg : 0 ≤ start) (order : start ≤ stop)
    (inside : stop ≤ a.length) : Text.slice (a ++ b) start stop = Text.slice a start stop := by
  have first : Text.resolve (a ++ b).length start = Text.resolve a.length start := by
    rw [Text.resolve_of_nonneg _ nonneg, Text.resolve_of_nonneg _ nonneg, List.length_append]
    omega
  have last : Text.resolve (a ++ b).length stop = Text.resolve a.length stop := by
    rw [Text.resolve_of_nonneg _ (by omega), Text.resolve_of_nonneg _ (by omega),
      List.length_append]
    omega
  rw [Text.slice, Text.slice, Text.sliceTo, Text.sliceTo, first, last,
    List.take_append_of_le_length (Text.resolve_le _ _)]

/-- A slice of the second piece of a text. -/
theorem Text.slice_right (a b : Text) {start stop : Int} (nonneg : 0 ≤ start)
    (order : start ≤ stop) :
    Text.slice (a ++ b) (start + a.length) (stop + a.length) = Text.slice b start stop := by
  have first : Text.resolve (a ++ b).length (start + a.length) =
      a.length + Text.resolve b.length start := by
    rw [Text.resolve_of_nonneg _ nonneg, Text.resolve_of_nonneg _ (by omega), List.length_append]
    omega
  have last : Text.resolve (a ++ b).length (stop + a.length) =
      a.length + Text.resolve b.length stop := by
    rw [Text.resolve_of_nonneg _ (by omega), Text.resolve_of_nonneg _ (by omega),
      List.length_append]
    omega
  rw [Text.slice, Text.slice, Text.sliceTo, Text.sliceTo, first, last, List.take_length_add_append,
    List.drop_length_add_append]

namespace Snapshot

variable {a old b : Text}

/-- The strings of a text with blanks in the middle are those before and those behind them,
whatever the blanks are. -/
theorem stringTexts_around (inCode : Mode.code.after a = .code)
    (separators : ∀ c ∈ old, isSeparator c = true) :
    (ofText (a ++ old ++ b)).stringTexts =
      ((Mode.code.spans 0 0 a).map fun span => Text.slice a span.start span.stop) ++
        (Mode.code.spans 0 0 b).map fun span => Text.slice b span.start span.stop := by
  rw [stringTexts, strings_around inCode separators, text_ofText, List.map_append]
  congr 1
  · refine List.map_congr_left fun span member => ?_
    obtain ⟨low, order, high⟩ := Mode.spans_bounds (Nat.le_refl 0) member
    rw [List.append_assoc]
    exact Text.slice_left a (old ++ b) low order (by omega)
  · rw [Mode.spans_move rfl 0 (a ++ old).length b, List.map_map]
    refine List.map_congr_left fun span member => ?_
    obtain ⟨low, order, -⟩ := Mode.spans_bounds (Nat.le_refl 0) member
    have moved : ((a ++ old).length : Int) - (0 : Nat) = (a ++ old).length := by omega
    rw [moved]
    exact Text.slice_right (a ++ old) b low order

end Snapshot

/-! ### The program of a text -/

/-- Two texts spell the same program: they differ in nothing but code blanks at the start of lines,
and the lines that begin inside strings are the same. -/
structure SameProgram (text result : Text) : Prop where
  content : (Snapshot.ofText result).content = (Snapshot.ofText text).content
  lineCount : result.lines.length = text.lines.length
  strings : (Snapshot.ofText result).stringTexts = (Snapshot.ofText text).stringTexts
  ending : (Snapshot.ofText result).endsInString = (Snapshot.ofText text).endsInString
  stringLines : ∀ i start : Nat, text.lineStarts[i]? = some start →
    (Snapshot.ofText text).inString start = true →
    ∃ start' : Nat, result.lineStarts[i]? = some start' ∧
      (Snapshot.ofText result).inString start' = true ∧ result.lines[i]? = text.lines[i]?

theorem SameProgram.refl (text : Text) : SameProgram text text :=
  ⟨rfl, rfl, rfl, rfl, fun _ start found inside => ⟨start, found, inside, rfl⟩⟩

theorem SameProgram.trans {a b c : Text} (first : SameProgram a b) (second : SameProgram b c) :
    SameProgram a c where
  content := second.content.trans first.content
  lineCount := second.lineCount.trans first.lineCount
  strings := second.strings.trans first.strings
  ending := second.ending.trans first.ending
  stringLines := by
    intro i start found inside
    obtain ⟨start', found', inside', same'⟩ := first.stringLines i start found inside
    obtain ⟨start'', found'', inside'', same''⟩ := second.stringLines i start' found' inside'
    exact ⟨start'', found'', inside'', same''.trans same'⟩

/-- Whether a line begins inside a string is decided by the lines above it. -/
theorem Snapshot.inString_line {text : Text} {i : Nat} (inside : i < text.lines.length) :
    (ofText text).inString ((Text.block (text.lines.take i)).length : Nat) =
      (Mode.code.after (Text.block (text.lines.take i))).inString := by
  have divided := inString_ofText (Text.block (text.lines.take i))
    (Text.unlines (text.lines.drop i))
  rwa [← Text.eq_block_append inside] at divided

/-- The lines of a text before and after one of them gets other blanks. -/
theorem lines_around {above : List Text} (single : ∀ line ∈ above, '\n' ∉ line) {blanks : Text}
    (old : ∀ c ∈ blanks, isIndentation c = true) (b : Text) :
    (Text.block above ++ blanks ++ b).lines = above ++ b.lines.modifyHead (blanks ++ ·) := by
  have clean : '\n' ∉ blanks := fun member => ne_newline_of_isIndentation (old _ member) rfl
  rw [List.append_assoc, Text.lines_block_append single, Text.lines_append clean]

/-- Blanks at the start of a line that begins in code do not matter for the lines below. -/
theorem after_block_around {above : List Text} (inCode : Mode.code.after (Text.block above) = .code)
    {blanks : Text} (old : ∀ c ∈ blanks, isIndentation c = true) (line : Text)
    (below : List Text) :
    Mode.code.after (Text.block (above ++ (blanks ++ line) :: below)) =
      Mode.code.after (line ++ '\n' :: Text.block below) := by
  have separators : ∀ c ∈ blanks, isSeparator c = true :=
    fun c member => isSeparator_of_isIndentation (old c member)
  rw [Text.block_append, Text.block_cons, List.append_assoc, Mode.after_append, inCode,
    Mode.after_append, Mode.after_separators separators]

/-- Giving one line other blanks keeps every line that begins inside a string, and keeps it inside
the string. -/
theorem Reindents.stringLines {text result : Text} (step : Reindents text result) {i : Nat}
    (inside : i < text.lines.length)
    (inString : (Mode.code.after (Text.block (text.lines.take i))).inString = true) :
    (Mode.code.after (Text.block (result.lines.take i))).inString = true ∧
      result.lines[i]? = text.lines[i]? := by
  obtain @⟨a, old, new, b, ends, inCode, blanks, blanks'⟩ := step
  obtain ⟨above, rfl, single⟩ := ends.exists_block
  obtain ⟨line, below, split⟩ := List.exists_cons_of_ne_nil (Text.lines_ne_nil b)
  rw [lines_around single blanks, split, List.modifyHead_cons] at inString ⊢
  rw [lines_around single blanks', split, List.modifyHead_cons]
  rcases Nat.lt_trichotomy i above.length with before | rfl | behind
  · rw [List.take_append_of_le_length (Nat.le_of_lt before)] at inString ⊢
    rw [List.getElem?_append_left before, List.getElem?_append_left before]
    exact ⟨inString, rfl⟩
  · rw [List.take_left, inCode] at inString
    exact nomatch inString
  · obtain ⟨j, rfl⟩ := Nat.exists_eq_add_of_lt behind
    have order : above.length ≤ above.length + j + 1 := by omega
    have place : above.length + j + 1 - above.length = j + 1 := by omega
    rw [List.take_append, List.take_of_length_le order, place, List.take_succ_cons,
      after_block_around inCode blanks] at inString
    rw [List.take_append, List.take_of_length_le order, place, List.take_succ_cons,
      after_block_around inCode blanks', List.getElem?_append_right order,
      List.getElem?_append_right order, place]
    exact ⟨inString, rfl⟩

/-- **Giving one line other blanks keeps the program.** -/
theorem SameProgram.of_reindents {text result : Text} (step : Reindents text result) :
    SameProgram text result := by
  have lineCount : result.lines.length = text.lines.length := by
    obtain @⟨a, old, new, b, ends, -, blanks, blanks'⟩ := step
    obtain ⟨above, rfl, single⟩ := ends.exists_block
    rw [lines_around single blanks, lines_around single blanks', List.length_append,
      List.length_append, List.length_modifyHead, List.length_modifyHead]
  have stringLines := @step.stringLines
  obtain @⟨a, old, new, b, ends, inCode, blanks, blanks'⟩ := step
  have separators : ∀ c ∈ old, isSeparator c = true :=
    fun c member => isSeparator_of_isIndentation (blanks c member)
  have separators' : ∀ c ∈ new, isSeparator c = true :=
    fun c member => isSeparator_of_isIndentation (blanks' c member)
  refine ⟨?_, lineCount, ?_, ?_, ?_⟩
  · rw [Snapshot.content, Snapshot.content, Snapshot.cells_around inCode separators,
      Snapshot.cells_around inCode separators', List.append_assoc, List.append_assoc,
      contentFrom_append ends, contentFrom_append ends, contentFrom_blanks blanks,
      contentFrom_blanks blanks']
  · rw [Snapshot.stringTexts_around inCode separators,
      Snapshot.stringTexts_around inCode separators']
  · rw [Snapshot.endsInString_around inCode separators,
      Snapshot.endsInString_around inCode separators']
  · intro i start found inString
    obtain ⟨inside, rfl⟩ := Text.getElem?_lineStarts.mp found
    rw [Snapshot.inString_line inside] at inString
    have inside' := lineCount ▸ inside
    obtain ⟨inString', same⟩ := stringLines inside inString
    refine ⟨_, Text.getElem?_lineStarts.mpr ⟨inside', rfl⟩, ?_, same⟩
    rw [Snapshot.inString_line inside']
    exact inString'

theorem SameProgram.of_reindents_steps {text result : Text}
    (steps : Relation.ReflTransGen Reindents text result) : SameProgram text result := by
  induction steps with
  | refl => exact .refl text
  | tail _ step ih => exact ih.trans (.of_reindents step)

/-- **Re-indenting a region keeps the program**: whatever the bounds, the cursor and the width, the
text that comes back differs in nothing but code blanks at the start of lines. -/
theorem indentRegion_sameProgram (text : Text) (start stop : Int) (cursor : Option Int)
    (width : Int) : SameProgram text (indentRegion text start stop cursor width).1 := by
  obtain ⟨a, line, behind, division, place, ends, single⟩ :=
    Text.exists_line_at (Text.clamp_le text.length (min start stop))
  have whole : text = a ++ (line ++ behind) := by rw [division, List.append_assoc]
  have known := RegionPass.faithful_start a (line ++ behind) (cursor.getD start) (max start stop)
  have steps := known.reindents_run ends width (text.count '\n')
  rw [indentRegion_of_line division ends single place.symm]
  rw [← whole] at steps
  exact SameProgram.of_reindents_steps steps

end LispEditor
