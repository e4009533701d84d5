import LispEditor.Proofs.DocumentEdit
import LispEditor.Proofs.EditorChange
import LispEditor.Proofs.LoadedSettings
import LispEditor.Proofs.WindowFiles

/-!
# What the status bar tells

The status bar names a file and the place of the cursor in it. It is written when the cursor moves,
with the file that is the current one at that moment.

The place is always right, because no edit takes the cursor to another line or column without
counting as a move. The file is the one that was current when the cursor last moved, and by now that
may be another one: a text is put into the editor before its file becomes the current one, and a
text that is saved under a name moves no cursor.

* `Document.Changes.follows`: a cursor that does not count as moved is where it was.
* `Window.reports_run`: what one command does to the status bar.
* `Window.tellsTruth_iff`: when the status bar of a window that was used tells the truth.
* `Window.not_tellsTruth_loaded`: a file was loaded, and the status bar does not know.
-/

namespace LispEditor

/-! ### The place of the cursor -/

namespace Document

open Text (utf16Length)

variable {before after d : Document}

theorem place_eq (held : after.held = before.held) (position : after.position = before.position) :
    after.line = before.line ∧ after.column = before.column := by
  simp only [line, column, blockStart, offset, offsetOf, text, held, position, and_self]

/-- The block and the column of a cursor depend on the text before it only. -/
theorem place_eq_of_append {a b c : Text} (old : before.held = a ++ b) (new : after.held = a ++ c)
    (same : after.position = before.position) (inside : before.position ≤ utf16Length a) :
    after.line = before.line ∧ after.column = before.column := by
  have reach : ((before.position : Nat) : Int) ≤ utf16Length a := Int.ofNat_le.mpr inside
  have offset : before.offset = Text.ofUtf16Position a before.position := by
    rw [Document.offset, offsetOf, text, Text.ofUtf16Position_shown, old,
      Text.ofUtf16Position_append_left reach]
  have offset' : after.offset = before.offset := by
    rw [offset, Document.offset, offsetOf, text, Text.ofUtf16Position_shown, new, same,
      Text.ofUtf16Position_append_left reach]
  have within : before.offset ≤ a.length := offset ▸ Text.ofUtf16Position_le_length a _
  have front : after.held.take before.offset = before.held.take before.offset := by
    rw [old, new, List.take_append_of_le_length within, List.take_append_of_le_length within]
  constructor
  · rw [line, line, Text.lineNumber, Text.lineNumber, offset', front]
  · have starts : after.blockStart = before.blockStart := by
      rw [blockStart, blockStart, offset', Text.lineStart, Text.lineStart, front]
    have start : before.blockStart ≤ a.length := Nat.le_trans (Nat.sub_le _ _) within
    rw [column, column, same, starts, text, text, Text.utf16Position_shown, Text.utf16Position_shown,
      new, old, Text.utf16Position_append_of_le start, Text.utf16Position_append_of_le start]

/-- A change that the cursor counts: unless it counts as moved, it is on the line and in the column
where it was. -/
def Follows (before after : Document) : Prop :=
  after.moved = false →
    before.moved = false ∧ after.line = before.line ∧ after.column = before.column

theorem Follows.trans {a b c : Document} (first : a.Follows b) (second : b.Follows c) :
    a.Follows c := by
  intro unmoved
  obtain ⟨between, line, column⟩ := second unmoved
  obtain ⟨start, line', column'⟩ := first between
  exact ⟨start, line.trans line', column.trans column'⟩

/-- Replacing a part of the text moves every cursor behind the start of the part, and a cursor right
there unless nothing is put in. All others are left alone. -/
theorem carry_of_not_carries {start stop units position : Nat}
    (still : carries start units position = false) :
    carry start stop units position = position ∧ position ≤ start ∧
      (start = position → units = 0) := by
  have fixed := of_decide_eq_false still
  unfold carry
  split
  · omega
  · split <;> omega

theorem follows_replace {start stop : Nat} (inserted : Text)
    (reached : start ≤ d.length ∨ start ≤ d.position ∧ start ≤ stop) :
    d.Follows (d.replace start stop inserted) := by
  unfold replace
  split
  next => exact fun same => ⟨same, rfl, rfl⟩
  next =>
    intro unmoved
    obtain ⟨still, unmoved⟩ := Bool.or_eq_false_iff.mp unmoved
    obtain ⟨same, before, empty⟩ := carry_of_not_carries unmoved
    refine ⟨still, ?_⟩
    by_cases within : start ≤ d.length
    · have front : (start : Int) ≤ utf16Length (d.held.take (d.offsetOf start)) := by
        rw [← Text.utf16Length_shown, Text.shown_take]
        exact Text.le_utf16Length_take (Int.ofNat_le.mpr within)
      refine place_eq_of_append (List.take_append_drop _ _).symm (List.append_assoc _ _ _) same ?_
      exact Nat.le_trans before (Int.ofNat_le.mp front)
    · -- Behind the text there is nothing to replace, and nothing was put in.
      obtain ⟨there, order⟩ := reached.resolve_left within
      have none : Text.settle inserted = [] :=
        Text.utf16Length_eq_zero.mp (empty (Nat.le_antisymm there before))
      have past {position : Nat} (behind : start ≤ position) :
          d.offsetOf position = d.held.length := by
        rw [← d.length_text]
        exact Text.ofUtf16Position_of_le (Int.ofNat_le.mpr (by unfold length at within; omega))
      have unchanged : d.held.take (d.offsetOf start) ++ Text.settle inserted ++
          d.held.drop (d.offsetOf stop) = d.held := by
        rw [past (Nat.le_refl start), past order, none]
        simp
      exact place_eq unchanged same

/-- An edit that is taken back always counts as a move, and so does one that is made again. -/
theorem follows_undo (d : Document) (position : Nat) : d.Follows (d.undo position) := by
  unfold undo
  split
  next => exact fun same => ⟨same, rfl, rfl⟩
  next => exact fun unmoved => nomatch unmoved

theorem follows_redo (d : Document) (position : Nat) : d.Follows (d.redo position) := by
  unfold redo
  split
  next => exact fun same => ⟨same, rfl, rfl⟩
  next => exact fun unmoved => nomatch unmoved

/-- **A cursor that does not count as moved by a change is where it was.** -/
theorem Change.follows (change : Change before after) : before.Follows after := by
  cases change with
  | cursor position anchor =>
      intro unmoved
      obtain ⟨still, same⟩ := Bool.or_eq_false_iff.mp unmoved
      have here : position = before.position := by simpa using same
      subst here
      exact ⟨still, rfl, rfl⟩
  | replaced reached => exact follows_replace _ reached
  | undone position => exact before.follows_undo position
  | redone position => exact before.follows_redo position

theorem Changes.follows (changes : Changes before after) : before.Follows after := by
  induction changes with
  | refl => exact fun same => ⟨same, rfl, rfl⟩
  | tail _ change ih => exact ih.trans change.follows

end Document

namespace Window

/-! ### What is written in the status bar -/

/-- The name under which the status bar shows a file. -/
def shownName : Option Path → String
  | none => "Untitled"
  | some path => String.ofList path.text

/-- The message about a place in a file of some name. -/
def locationMessage (name : String) (line column : Nat) : String :=
  name ++ " — " ++ Dialect.name ++ " — Line " ++ line.repr ++ ", Column " ++ column.repr

theorem locationText_eq (file : Option Path) (line column : Nat) :
    locationText file line column = locationMessage (shownName file) line column := by
  cases file <;> rfl

/-- Digits at the end of a text, behind a character that is none, are told apart from the rest. -/
theorem append_digits_inj {a b digits others : Text} {mark : Char} (other : mark.isDigit = false)
    (all : ∀ c ∈ digits, c.isDigit = true) (all' : ∀ c ∈ others, c.isDigit = true)
    (same : a ++ mark :: digits = b ++ mark :: others) : a = b ∧ digits = others := by
  have apart {digits others middle : Text} (all : ∀ c ∈ digits, c.isDigit = true)
      (tail : mark :: digits = middle ++ mark :: others) : middle = [] := by
    cases middle with
    | nil => rfl
    | cons c rest =>
        have behind : digits = rest ++ mark :: others := (List.cons.inj tail).2
        have member : mark ∈ digits := behind ▸ List.mem_append_right rest List.mem_cons_self
        exact absurd (all mark member) (by rw [other]; exact Bool.false_ne_true)
  rcases List.append_eq_append_iff.mp same with ⟨middle, front, tail⟩ | ⟨middle, front, tail⟩
  · rw [apart all tail] at front tail
    exact ⟨by simpa using front.symm, (List.cons.inj tail).2⟩
  · rw [apart all' tail] at front tail
    exact ⟨by simpa using front, (List.cons.inj tail).2.symm⟩

/-- A number at the end of a message, behind a mark, is told apart from what is before it. -/
theorem append_repr_inj {a b mark : String} {m n : Nat} {front : Text} {last : Char}
    (ends : mark.toList = front ++ [last]) (other : last.isDigit = false)
    (same : a ++ mark ++ m.repr = b ++ mark ++ n.repr) : a = b ∧ m = n := by
  have pieces (name : String) (k : Nat) : (name ++ mark ++ k.repr).toList =
      (name.toList ++ front) ++ last :: Nat.toDigits 10 k := by
    rw [String.toList_append, String.toList_append, Nat.toList_repr, ends]
    simp
  have digits (k : Nat) : ∀ c ∈ Nat.toDigits 10 k, c.isDigit = true := fun c member =>
    Nat.isDigit_of_mem_toDigits (by decide) (by decide) member
  have lists := congrArg String.toList same
  rw [pieces, pieces] at lists
  obtain ⟨fronts, numbers⟩ := append_digits_inj other (digits m) (digits n) lists
  refine ⟨String.toList_inj.mp (List.append_cancel_right fronts), ?_⟩
  calc
    m = Nat.ofDigitChars 10 (Nat.toDigits 10 m) 0 := Nat.ofDigitChars_ten_toDigits.symm
    _ = Nat.ofDigitChars 10 (Nat.toDigits 10 n) 0 := by rw [numbers]
    _ = n := Nat.ofDigitChars_ten_toDigits

/-- A message about a place says one name, one line and one column. -/
theorem locationMessage_inj {name other : String} {line column line' column' : Nat}
    (same : locationMessage name line column = locationMessage other line' column') :
    name = other ∧ line = line' ∧ column = column' := by
  have columnMark : ", Column ".toList = ", Column".toList ++ [' '] := by decide
  have lineMark : " — Line ".toList = " — Line".toList ++ [' '] := by decide
  obtain ⟨before, columns⟩ := append_repr_inj columnMark (by decide) same
  obtain ⟨names, lines⟩ := append_repr_inj lineMark (by decide) before
  rw [String.append_assoc, String.append_assoc] at names
  exact ⟨(String.append_left_inj _).mp names, lines, columns⟩

/-- Every message about a place has a dash in it. -/
theorem dash_mem_locationMessage (name : String) (line column : Nat) :
    '—' ∈ (locationMessage name line column).toList := by
  simp only [locationMessage, String.toList_append, List.mem_append]
  simp

/-- What is written when the settings cannot be saved. -/
def unsavedMessage : String := "Could not save settings"

/-- The status bar shows a message about a place. -/
def ShowsPlace (w : Window) : Prop :=
  ∃ name line column, w.status = locationMessage name line column

/-- Wherever the status bar shows a message about a place, that is the place of the cursor in the
current file. -/
def TellsTruth (w : Window) : Prop :=
  ∀ name line column, w.status = locationMessage name line column →
    name = shownName w.currentFile ∧ line = w.editor.document.line ∧
      column = w.editor.document.column

/-! ### Commands that move the cursor -/

/-- Whether a command moves the cursor. A new text always does. -/
def MovesCursor (w : Window) (answers : Answers) : WindowCommand → Prop
  | .edit command => ∃ e, w.editor.perform command = .ok e ∧ e.document.moved = true
  | .newFile => (w.mayDiscard answers).2 = true
  | .openFile => (w.mayDiscard answers).2 = true ∧
      ∃ path text, chosenPath? answers.openPath = some path ∧ w.disk.readText path = .ok text
  | .load path => ∃ text, w.disk.readText path = .ok text
  | .pickSymbol group index => ∃ definition, w.symbolAt? group index = some definition ∧
      (w.editor.gotoOffset definition.position).document.moved = true
  | _ => False

/-- What a command does to the status bar, whether it `moves` the cursor or not. If it does, the
status bar tells where the cursor is then, in the file that was current before. If it does not, the
cursor is where it was, and at most a complaint comes up. -/
structure Reports (w : Window) (moves : Prop) (after : Window) : Prop where
  looked : after.editor.document.moved = false
  told : moves → after.status =
    locationText w.currentFile after.editor.document.line after.editor.document.column
  still : ¬ moves → (after.editor.document.line = w.editor.document.line ∧
    after.editor.document.column = w.editor.document.column) ∧
      (after.status = w.status ∨ after.status = unsavedMessage)

/-- A command that leaves the cursor alone. -/
def Stays (w after : Window) : Prop :=
  after.editor.document.moved = false ∧
    (after.editor.document.line = w.editor.document.line ∧
      after.editor.document.column = w.editor.document.column) ∧
    (after.status = w.status ∨ after.status = unsavedMessage)

theorem Stays.refl {w : Window} (looked : w.editor.document.moved = false) : w.Stays w :=
  ⟨looked, ⟨rfl, rfl⟩, .inl rfl⟩

theorem Stays.trans {a b c : Window} (first : a.Stays b) (second : b.Stays c) : a.Stays c := by
  obtain ⟨-, ⟨line, column⟩, status⟩ := first
  obtain ⟨looked, ⟨line', column'⟩, status'⟩ := second
  refine ⟨looked, ⟨line'.trans line, column'.trans column⟩, ?_⟩
  rcases status' with same | complaint
  · rw [same]
    exact status
  · exact .inr complaint

theorem Stays.reports {w after : Window} (stays : w.Stays after) {moves : Prop} (not : ¬ moves) :
    w.Reports moves after :=
  ⟨stays.1, fun moved => absurd moved not, fun _ => stays.2⟩

theorem Reports.of_iff {w after : Window} {moves does : Prop} (reports : w.Reports moves after)
    (same : moves ↔ does) : w.Reports does after :=
  ⟨reports.looked, fun moved => reports.told (same.mpr moved),
    fun unmoved => reports.still fun moved => unmoved (same.mp moved)⟩

theorem Reports.showsPlace {w after : Window} {moves : Prop} (reports : w.Reports moves after)
    (moved : moves) : after.ShowsPlace :=
  ⟨_, _, _, (reports.told moved).trans (locationText_eq ..)⟩

variable {w : Window}

/-- The status bar follows the cursor of an editor that is taken over. -/
theorem reports_takeEditor {e : Editor} (follows : w.editor.document.Follows e.document) :
    w.Reports (e.document.moved = true) (w.takeEditor e) where
  looked := rfl
  told moved := if_pos moved
  still unmoved := by
    obtain ⟨-, place⟩ := follows (Bool.eq_false_iff.mpr unmoved)
    exact ⟨place, .inl (if_neg unmoved)⟩

/-- A new text is told of before its file is the current one. -/
theorem reports_setText {asked : Window} (same : asked.currentFile = w.currentFile) (text : Text)
    (file : Option Path) {moves : Prop} (does : moves) :
    w.Reports moves ((asked.onEditor (·.setText text)).setCurrentFile file) where
  looked := rfl
  told _ := same ▸ rfl
  still not := absurd does not

/-! ### Settings -/

/-- A change of the editor that leaves its text and its cursor alone. -/
theorem stays_onEditor {change : Editor → Editor}
    (unmoved : (change w.editor).document.moved = false)
    (held : (change w.editor).document.held = w.editor.document.held)
    (position : (change w.editor).document.position = w.editor.document.position) :
    w.Stays (w.onEditor change) := by
  have silent : ¬ (change w.editor).document.moved = true := by
    rw [unmoved]
    exact Bool.false_ne_true
  exact ⟨rfl, Document.place_eq held position, .inl (if_neg silent)⟩

theorem stays_saveSettings (looked : w.editor.document.moved = false) :
    w.Stays (settled w.saveSettings) := by
  unfold saveSettings
  split
  · exact .refl looked
  · exact .refl looked
  · exact ⟨looked, ⟨rfl, rfl⟩, .inr rfl⟩

theorem stays_putSetting (looked : w.editor.document.moved = false) (key : String)
    (value : JsonValue) : w.Stays (settled (w.putSetting key value)) :=
  stays_saveSettings (w := { w with settings := w.settings.put key value }) looked

theorem stays_setTheme (looked : w.editor.document.moved = false) (theme : Theme) :
    w.Stays (settled (w.setTheme theme)) := by
  let checked : Window :=
    { w with darkChecked := theme == Theme.dark, lightChecked := theme == Theme.light }
  have put : w.Stays (settled (checked.putSetting "theme" (.string theme.name))) :=
    stays_putSetting (w := checked) looked _ _
  show w.Stays (settled ((checked.putSetting "theme" (.string theme.name)).map _))
  cases done : checked.putSetting "theme" (.string theme.name) with
  | error interruption => rw [done] at put; exact put
  | ok saved =>
      rw [done] at put
      have painted : saved.Stays (saved.onEditor (·.setPalette theme.palette)) :=
        stays_onEditor put.1 rfl rfl
      exact put.trans painted

theorem stays_setIndentWidth (looked : w.editor.document.moved = false) (width : Int) :
    w.Stays (settled (w.setIndentWidth width)) :=
  (stays_onEditor looked rfl rfl).trans (stays_putSetting rfl _ _)

theorem stays_changeFontSize (looked : w.editor.document.moved = false) {change : Editor → Editor}
    (same : (change w.editor).document = w.editor.document) :
    w.Stays (settled (w.changeFontSize change)) := by
  have changed : w.Stays (w.onEditor change) := by
    apply stays_onEditor
    · rw [same]
      exact looked
    · rw [same]
    · rw [same]
  exact changed.trans (stays_putSetting rfl _ _)

theorem stays_toggleWordWrap (looked : w.editor.document.moved = false) :
    w.Stays (settled w.toggleWordWrap) := by
  let checked : Window := { w with wrapChecked := !w.wrapChecked }
  have toggled : checked.Stays (checked.onEditor (·.setWordWrap !w.wrapChecked)) :=
    stays_onEditor (w := checked) looked rfl rfl
  exact toggled.trans (stays_putSetting rfl _ _)

theorem stays_askIndentWidth (looked : w.editor.document.moved = false) (answers : Answers) :
    w.Stays (settled (w.askIndentWidth answers)) := by
  unfold askIndentWidth
  dsimp only
  split
  next width _ => exact stays_setIndentWidth (w := w.display _) looked width
  next => exact .refl looked

/-! ### Files -/

theorem stays_mayDiscard (looked : w.editor.document.moved = false) (answers : Answers) :
    w.Stays (w.mayDiscard answers).1 := by
  unfold mayDiscard
  split <;> exact .refl looked

/-- A written text leaves the cursor alone, and so does what is done about its file then. -/
theorem stays_write (looked : w.editor.document.moved = false) (path : Path)
    {next : Window × Bool → Window}
    (idle : ∀ after written, (next (after, written)).editor = after.editor ∧
      (next (after, written)).status = after.status) :
    w.Stays (settled ((w.write path).map next)) := by
  have passed {after : Window} (stays : w.Stays after) (written : Bool) :
      w.Stays (next (after, written)) := by
    obtain ⟨editor, status⟩ := idle after written
    unfold Stays
    rw [editor, status]
    exact stays
  unfold write
  split
  next => exact .refl looked
  next fault _ _ =>
    have told : w.Stays ((w.note .fileUnsaved).display (.critical "Save File"
        ("Could not save " ++ String.ofList path.text ++ ":\n" ++ fault.message path))) :=
      .refl looked
    exact passed told false
  next disk _ =>
    have saved : w.Stays ({ w with disk := disk }.onEditor fun e =>
        e.onDocument Document.markSaved) :=
      stays_onEditor (w := { w with disk := disk }) looked rfl rfl
    exact passed saved true

theorem stays_saveFileAs (looked : w.editor.document.moved = false) (answers : Answers) :
    w.Stays (settled (w.saveFileAs answers)) := by
  unfold saveFileAs
  dsimp only
  split
  next path _ =>
    refine stays_write (w := w.display _) looked path fun after written => ?_
    cases written <;> exact ⟨rfl, rfl⟩
  next => exact .refl looked

theorem stays_saveFile (looked : w.editor.document.moved = false) (answers : Answers) :
    w.Stays (settled (w.saveFile answers)) := by
  unfold saveFile
  split
  next path _ => exact stays_write looked path fun after written => ⟨rfl, rfl⟩
  next => exact stays_saveFileAs looked answers

/-- Loading tells of the text if there is one. -/
theorem reports_load {asked : Window} (stays : w.Stays asked)
    (same : asked.currentFile = w.currentFile) (path : Path) :
    w.Reports (∃ text, asked.disk.readText path = .ok text) (asked.load path).1 := by
  unfold load
  split
  next error failed =>
    have told : w.Stays ((asked.note .fileUnreadable).display (.critical "Open File"
        ("Could not open " ++ String.ofList path.text ++ ":\n" ++ error.message))) := stays
    refine told.reports ?_
    rintro ⟨text, found⟩
    exact nomatch failed.symm.trans found
  next text found => exact reports_setText same text (some path) ⟨text, found⟩

theorem reports_newFile (looked : w.editor.document.moved = false) (answers : Answers) :
    w.Reports (w.MovesCursor answers .newFile) (w.newFile answers) := by
  show w.Reports ((w.mayDiscard answers).2 = true)
    (if (w.mayDiscard answers).2 = true then
      ((w.mayDiscard answers).1.onEditor (·.setText [])).setCurrentFile none
    else (w.mayDiscard answers).1)
  split
  next may => exact reports_setText (w.keeps_mayDiscard answers).currentFile_eq [] none may
  next refused => exact (stays_mayDiscard looked answers).reports refused

theorem reports_openFile (looked : w.editor.document.moved = false) (answers : Answers) :
    w.Reports (w.MovesCursor answers .openFile) (w.openFile answers) := by
  have asked := w.keeps_mayDiscard answers
  have stays := stays_mayDiscard looked answers
  have shown : w.Stays ((w.mayDiscard answers).1.display
    (.openFile "Open File" Dialect.dialogFilter)) := stays
  rw [openFile]
  cases chosen : chosenPath? answers.openPath with
  | none =>
      have still : ¬ w.MovesCursor answers .openFile := by
        rintro ⟨-, path, text, other, -⟩
        cases chosen.symm.trans other
      show w.Reports _ (if (w.mayDiscard answers).2 = true then (w.mayDiscard answers).1.display _
        else (w.mayDiscard answers).1)
      split
      next => exact shown.reports still
      next => exact stays.reports still
  | some path =>
      show w.Reports _ (if (w.mayDiscard answers).2 = true then
        (((w.mayDiscard answers).1.display _).load path).1 else (w.mayDiscard answers).1)
      split
      next may =>
        refine (reports_load shown asked.currentFile_eq path).of_iff ⟨?_, ?_⟩
        · rintro ⟨text, found⟩
          exact ⟨may, path, text, chosen, asked.disk_eq ▸ found⟩
        · rintro ⟨-, other, text, same, found⟩
          cases chosen.symm.trans same
          exact ⟨text, asked.disk_eq.symm ▸ found⟩
      next refused => exact stays.reports fun moves => refused moves.1

/-! ### What one command does -/

/-- The cursor of an editor counts every move that a command makes. -/
theorem follows_perform {e after : Editor} {command : EditorCommand}
    (done : e.perform command = .ok after) : e.document.Follows after.document := by
  by_cases byUser : command.ByUser
  · exact (e.changes_perform byUser done).follows
  · obtain ⟨text, rfl⟩ : ∃ text, command = .setText text := by
      cases command with
      | setText text => exact ⟨text, rfl⟩
      | _ => exact absurd trivial byUser
    cases done
    exact fun unmoved => nomatch unmoved

/-- **What one command does to the status bar.** -/
theorem reports_run (looked : w.editor.document.moved = false) (answers : Answers)
    (command : WindowCommand) :
    w.Reports (w.MovesCursor answers command) (w.run [(command, answers)]) := by
  rw [run_singleton]
  cases command with
  | edit edit =>
      rw [perform]
      cases done : w.editor.perform edit with
      | error cause =>
          refine (Stays.refl looked).reports ?_
          rintro ⟨e, performed, -⟩
          cases done.symm.trans performed
      | ok e =>
          refine (reports_takeEditor (follows_perform done)).of_iff
            ⟨fun moved => ⟨e, done, moved⟩, ?_⟩
          rintro ⟨other, performed, moved⟩
          cases done.symm.trans performed
          exact moved
  | newFile => exact reports_newFile looked answers
  | openFile => exact reports_openFile looked answers
  | load path => exact reports_load (Stays.refl looked) rfl path
  | pickSymbol group index =>
      show w.Reports _ (w.pickSymbol group index)
      unfold pickSymbol
      split
      next definition found =>
        have done : w.editor.perform (.gotoOffset definition.position) =
            .ok (w.editor.gotoOffset definition.position) := rfl
        refine (reports_takeEditor (follows_perform done)).of_iff
          ⟨fun moved => ⟨definition, found, moved⟩, ?_⟩
        rintro ⟨other, again, moved⟩
        cases found.symm.trans again
        exact moved
      next missing =>
        refine (Stays.refl looked).reports ?_
        rintro ⟨definition, found, -⟩
        cases missing.symm.trans found
  | saveFile => exact (stays_saveFile looked answers).reports id
  | saveFileAs => exact (stays_saveFileAs looked answers).reports id
  | close => exact (stays_mayDiscard looked answers).reports id
  | increaseFont => exact (stays_changeFontSize looked rfl).reports id
  | decreaseFont => exact (stays_changeFontSize looked rfl).reports id
  | resetFont => exact (stays_changeFontSize looked rfl).reports id
  | toggleWordWrap => exact (stays_toggleWordWrap looked).reports id
  | setTheme theme => exact (stays_setTheme looked theme).reports id
  | askIndentWidth => exact (stays_askIndentWidth looked answers).reports id
  | setIndentWidth width => exact (stays_setIndentWidth looked width).reports id
  | openSymbols =>
      have filled : w.Stays w.openSymbols := .refl looked
      exact filled.reports id

/-! ### Windows that were used -/

/-- Windows that were opened and then used in any way, with whatever disk each command finds. `told`
is the file that was current when the cursor last moved, or none before it ever did. -/
inductive Used : Window → (told : Option Path) → Prop
  | opened {limits : NestingLimits} {disk : Disk} {settingsPath : Path} {w : Window} :
      start disk settingsPath limits = .ok w → Used w none
  | moved {w : Window} {told : Option Path} (seen : Disk) {answers : Answers}
      {command : WindowCommand} : Used w told → { w with disk := seen }.MovesCursor answers command →
      Used ({ w with disk := seen }.run [(command, answers)]) w.currentFile
  | unmoved {w : Window} {told : Option Path} (seen : Disk) {answers : Answers}
      {command : WindowCommand} : Used w told →
      ¬ { w with disk := seen }.MovesCursor answers command →
      Used ({ w with disk := seen }.run [(command, answers)]) told

/-- A command that moves the cursor and finds the window's own disk. -/
theorem Used.moved_here {told : Option Path} {answers : Answers} {command : WindowCommand}
    (used : Used w told) (moves : w.MovesCursor answers command) :
    Used (w.run [(command, answers)]) w.currentFile :=
  used.moved w.disk moves

theorem Used.unmoved_here {told : Option Path} {answers : Answers} {command : WindowCommand}
    (used : Used w told) (still : ¬ w.MovesCursor answers command) :
    Used (w.run [(command, answers)]) told :=
  used.unmoved w.disk still

/-- What the status bar shows: nothing yet, a complaint, or the place of the cursor in the file that
was current when the cursor last moved. -/
structure Shows (w : Window) (told : Option Path) : Prop where
  looked : w.editor.document.moved = false
  status : w.status = "" ∨ w.status = unsavedMessage ∨
    w.status = locationText told w.editor.document.line w.editor.document.column

theorem Used.shows {told : Option Path} (used : Used w told) : w.Shows told := by
  induction used with
  | opened started =>
      have opened := opened_of_start started
      exact ⟨opened.document_eq ▸ rfl, .inl opened.status_eq⟩
  | @moved w told seen answers command used moves ih =>
      have reports := reports_run (w := { w with disk := seen }) ih.looked answers command
      exact ⟨reports.looked, .inr (.inr (reports.told moves))⟩
  | @unmoved w told seen answers command used still ih =>
      have reports := reports_run (w := { w with disk := seen }) ih.looked answers command
      refine ⟨reports.looked, ?_⟩
      obtain ⟨⟨line, column⟩, same | complaint⟩ := reports.still still
      · rw [same, line, column]
        exact ih.status
      · exact .inr (.inl complaint)

theorem ne_locationMessage {message : String} (plain : '—' ∉ message.toList) (name : String)
    (line column : Nat) : message ≠ locationMessage name line column :=
  fun same => plain (same ▸ dash_mem_locationMessage name line column)

/-- A message about a place names the file that was current when the cursor last moved, and tells
the place where the cursor is. -/
theorem Shows.of_message {told : Option Path} (shows : w.Shows told) {name : String}
    {line column : Nat} (message : w.status = locationMessage name line column) :
    name = shownName told ∧ line = w.editor.document.line ∧ column = w.editor.document.column := by
  rcases shows.status with empty | complaint | place
  · exact absurd (empty.symm.trans message) (ne_locationMessage (by decide) _ _ _)
  · exact absurd (complaint.symm.trans message) (ne_locationMessage (by decide) _ _ _)
  · rw [locationText_eq] at place
    exact locationMessage_inj (message.symm.trans place)

/-- **The status bar of a window that was used tells the place of the cursor, in the file that was
current when the cursor last moved.** So it tells the truth unless it names that file while a file of
another name is current. -/
theorem tellsTruth_iff {told : Option Path} (used : Used w told) :
    (∀ name line column, w.status = locationMessage name line column →
      name = shownName told ∧ line = w.editor.document.line ∧
        column = w.editor.document.column) ∧
    (w.TellsTruth ↔ (w.ShowsPlace → shownName told = shownName w.currentFile)) := by
  have shows := used.shows
  refine ⟨fun name line column message => shows.of_message message, ?_, ?_⟩
  · rintro truth ⟨name, line, column, message⟩
    rw [← (shows.of_message message).1]
    exact (truth name line column message).1
  · intro named name line column message
    obtain ⟨file, place⟩ := shows.of_message message
    exact ⟨file.trans (named ⟨name, line, column, message⟩), place⟩

/-- A text that was typed and then saved under a name is still called untitled, until the next
character is typed. -/
theorem tellsTruth_typed_again :
    ∃ w, start .empty (Path.ofText ['s']) = .ok w ∧
      let typed := w.run [(.edit (.typeText ['x']), .cancelled)]
      let saved := typed.run [(.saveFileAs, ⟨none, some ['b'], none, false⟩)]
      let again := saved.run [(.edit (.typeText ['y']), .cancelled)]
      typed.TellsTruth ∧ ¬ saved.TellsTruth ∧
        again.ShowsPlace ∧ again.currentFile = some (Path.ofText ['b']) ∧ again.TellsTruth := by
  refine ⟨_, rfl, ?_⟩
  intro typed saved again
  have opened := Used.opened (rfl : start .empty (Path.ofText ['s']) = .ok _)
  have usedTyped : Used typed none := opened.moved_here ⟨_, rfl, by decide +kernel⟩
  have usedSaved : Used saved none := usedTyped.unmoved_here id
  have moves : saved.MovesCursor .cancelled (.edit (.typeText ['y'])) :=
    ⟨_, rfl, by decide +kernel⟩
  have current : saved.currentFile = some (Path.ofText ['b']) := by decide +kernel
  have usedAgain : Used again saved.currentFile := usedSaved.moved_here moves
  rw [current] at usedAgain
  have status : saved.status = locationText none 1 2 := by decide +kernel
  have shows : saved.ShowsPlace := ⟨_, _, _, status.trans (locationText_eq none 1 2)⟩
  refine ⟨(tellsTruth_iff usedTyped).2.mpr fun _ => rfl, fun truth => ?_,
    (reports_run usedSaved.shows.looked _ _).showsPlace moves, by decide +kernel,
    (tellsTruth_iff usedAgain).2.mpr fun _ => by decide +kernel⟩
  have named := (tellsTruth_iff usedSaved).2.mp truth shows
  rw [current] at named
  exact absurd named (by decide)

/-- A file was loaded, and the status bar does not know of it. -/
theorem not_tellsTruth_loaded :
    let disk := Disk.empty.put ⟨.above 0, [['a']]⟩ (.file [120])
    ∃ w, start disk (Path.ofText ['s']) = .ok w ∧
      let loaded := w.run [(.load (Path.ofText ['a']), .cancelled)]
      Used loaded none ∧ loaded.currentFile = some (Path.ofText ['a']) ∧ ¬ loaded.TellsTruth := by
  intro disk
  refine ⟨_, rfl, ?_⟩
  intro loaded
  have opened := Used.opened (rfl : start disk (Path.ofText ['s']) = .ok _)
  have reads : disk.readText (Path.ofText ['a']) = .ok ['x'] := rfl
  have used : Used loaded none := opened.moved_here (⟨['x'], reads⟩ :
    MovesCursor _ .cancelled (.load (Path.ofText ['a'])))
  refine ⟨used, rfl, fun truth => ?_⟩
  have named : shownName none = shownName (some (Path.ofText ['a'])) :=
    (truth _ _ _ (locationText_eq none 1 1)).1
  exact absurd named (by decide)

end Window

end LispEditor
