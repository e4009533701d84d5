import LispEditor.Startup
import LispEditor.Proofs.EditorChange
import LispEditor.Proofs.ShownText
import LispEditor.Proofs.StoredText

/-!
# Files in a window

A window is started, perhaps with a file, and then sees edits, new files, opening, saving and
closing in any order, with any answers to its dialogs. Edits may be taken back and made again. Opening
and saving may fail, for a reason of the disk's own or for any other one. No work is lost on the way,
and a document that does not count as modified is on the disk.

The file of such a document has the text of the document, but for the few characters that a document
does not show as they are.

* `outcome_run`: what one step can do. Everything below is read off it.
* `Outcome.keeps`: a command that is cancelled or fails changes nothing.
* `Outcome.intact`, `Reachable.intact`: what a step preserves, and so every run.
* `safe_of_reachable`: no work is lost in a window that can be reached.
-/

namespace LispEditor

/-- What a user does with a text and its files. -/
def WindowCommand.ByUser : WindowCommand → Prop
  | .edit command => command.ByUser
  | .newFile | .openFile | .saveFile | .saveFileAs | .close => True
  | _ => False

/-- Whether a command is to save the text. -/
def WindowCommand.Saves (command : WindowCommand) : Prop :=
  command = .saveFile ∨ command = .saveFileAs

namespace Window

/-! ### Steps -/

/-- The path that opening or saving asks the disk for, unless it is cancelled. -/
def target? (w : Window) (answers : Answers) : WindowCommand → Option Path
  | .openFile => chosenPath? answers.openPath
  | .saveFile => w.currentFile.or (chosenPath? answers.savePath)
  | .saveFileAs => chosenPath? answers.savePath
  | _ => none

/-- Whether opening or saving is cancelled. -/
def Cancels (w : Window) (answers : Answers) (command : WindowCommand) : Prop :=
  (command = .openFile ∨ command.Saves) ∧ w.target? answers command = none

/-- Whether a disk fails to open the file for a command: it cannot be read or decoded, or it cannot
be written. -/
def Fails (w : Window) (disk : Disk) (answers : Answers) (command : WindowCommand) : Prop :=
  ∃ path, w.target? answers command = some path ∧
    match command with
    | .openFile => ∃ error, disk.readText path = .error error
    | _ => ∃ fault, disk.writeText path w.editor.text = .error fault

/-- One step of a window that sees the disk `seen`: its own one, or, where the file cannot be opened
for whatever reason, one on which that fails. Its own disk then stays as it is. -/
inductive Step (w : Window) (command : WindowCommand) (answers : Answers) (seen : Disk) :
    Window → Prop
  | performed : seen = w.disk → Step w command answers seen (w.run [(command, answers)])
  | refused : w.Fails seen answers command →
      Step w command answers seen
        { { w with disk := seen }.run [(command, answers)] with disk := w.disk }

/-- The windows that can be reached: one that was just started, be its file loaded or refused, and
what the user makes of it step by step. -/
inductive Reachable : Window → Prop
  | launched (limits : NestingLimits) (disk : Disk) (home : Path) (arguments : List Text)
      {w : Window} : Startup.launch disk home arguments limits = .ok w → Reachable w
  | unloaded {limits : NestingLimits} {disk seen : Disk} {home path : Path} {error : ReadError}
      {w : Window} :
      Startup.launch disk home [] limits = .ok w → seen.readText path = .error error →
      Reachable { ({ w with disk := seen }.load path).1 with disk := w.disk }
  | step {w after : Window} {command : WindowCommand} {answers : Answers} {seen : Disk} :
      Reachable w → command.ByUser → Step w command answers seen after → Reachable after

/-! ### What a step can do -/

/-- The title of a window: the name of the program, and that of the file if there is one. -/
def fileTitle : Option Path → String
  | none => "LispPad"
  | some path => "LispPad — " ++ String.ofList (path.parts.getLast?.getD [])

theorem titleFor_eq (file : Option Path) : titleFor file = fileTitle file := by
  cases file with
  | none => rfl
  | some path =>
      have front : programName ++ " — " = "LispPad — " := by decide
      rw [titleFor, front, fileTitle, Path.name]

/-- The document, the file it belongs to and the disk are left as they were. -/
structure Keeps (before after : Window) : Prop where
  document_eq : after.editor.document = before.editor.document
  currentFile_eq : after.currentFile = before.currentFile
  title_eq : after.title = before.title
  disk_eq : after.disk = before.disk

/-- A text that counts as saved, the only one that the document knows, the file it belongs to and the
title of the window. -/
structure Presents (w : Window) (text : Text) (file : Option Path) : Prop where
  text_eq : w.editor.text = text
  unmodified : w.editor.document.modified = false
  alone : ∀ revision ∈ w.editor.document.past ++ w.editor.document.future, revision.modified = true
  currentFile_eq : w.currentFile = file
  title_eq : w.title = fileTitle file

/-- The question whether changes may be lost. -/
def discardQuestion : Dialog :=
  .warning "Unsaved Changes"
    "The document has unsaved changes. Do you want to continue without saving?"

/-- The user was asked in this step whether changes may be lost, and said yes. -/
def Agreed (before : Window) (answers : Answers) (after : Window) : Prop :=
  answers.discard = true ∧ ∃ more, after.dialogs = before.dialogs ++ discardQuestion :: more

/-- What a step of the user can do to a window. -/
inductive Outcome (w : Window) (answers : Answers) : WindowCommand → Window → Prop
  | edited {command : EditorCommand} {after : Window} :
      w.editor.document.Edits after.editor.document → after.currentFile = w.currentFile →
      after.title = w.title → after.disk = w.disk → Outcome w answers (.edit command) after
  /-- Nothing happened; where the text was to be saved, that was cancelled or failed. -/
  | kept {command : WindowCommand} {after : Window} :
      w.Keeps after →
      (command.Saves → w.target? answers command = none ∨ w.Fails w.disk answers command) →
      Outcome w answers command after
  | emptied {after : Window} :
      (w.editor.document.modified = true → w.Agreed answers after) → after.Presents [] none →
      after.disk = w.disk → Outcome w answers .newFile after
  | opened {path : Path} {text : Text} {after : Window} :
      (w.editor.document.modified = true → w.Agreed answers after) →
      w.target? answers .openFile = some path → w.disk.readText path = .ok text →
      after.Presents (Text.shown text) (some path) → after.disk = w.disk →
      Outcome w answers .openFile after
  | saved {command : WindowCommand} {path : Path} {after : Window} :
      command.Saves → w.target? answers command = some path →
      w.disk.writeText path w.editor.text = .ok after.disk →
      after.Presents w.editor.text (some path) → Outcome w answers command after

theorem Keeps.refl (w : Window) : w.Keeps w :=
  ⟨rfl, rfl, rfl, rfl⟩

theorem Keeps.trans {a b c : Window} (first : a.Keeps b) (second : b.Keeps c) : a.Keeps c :=
  ⟨second.document_eq.trans first.document_eq, second.currentFile_eq.trans first.currentFile_eq,
    second.title_eq.trans first.title_eq, second.disk_eq.trans first.disk_eq⟩

theorem Keeps.text_eq {before after : Window} (keeps : before.Keeps after) :
    after.editor.text = before.editor.text :=
  congrArg Document.text keeps.document_eq

theorem keeps_display (w : Window) (dialog : Dialog) : w.Keeps (w.display dialog) :=
  ⟨rfl, rfl, rfl, rfl⟩

theorem presents_setText (w : Window) {text : Text} (free : '\r' ∉ text) (file : Option Path) :
    ((w.onEditor (·.setText text)).setCurrentFile file).Presents (Text.shown text) file :=
  ⟨Text.shown_settle free, rfl, List.forall_mem_nil _, rfl, titleFor_eq file⟩

/-- A document that was just saved counts as modified with every other text. -/
theorem modified_of_markSaved {d : Document} {revision : Revision}
    (member : revision ∈ d.markSaved.past ++ d.markSaved.future) : revision.modified = true := by
  rw [Document.markSaved, ← List.map_append] at member
  obtain ⟨other, -, rfl⟩ := List.mem_map.mp member
  rfl

/-- What a command that was carried out or given up leaves. -/
def settled : Except Interruption Window → Window
  | .ok after => after
  | .error interruption => interruption.window

theorem run_singleton (w : Window) (command : WindowCommand) (answers : Answers) :
    w.run [(command, answers)] = settled (w.perform answers command) := by
  rw [run]
  cases w.perform answers command <;> rfl

/-! ### The question -/

/-- The question itself changes nothing. -/
theorem keeps_mayDiscard (w : Window) (answers : Answers) : w.Keeps (w.mayDiscard answers).1 := by
  rw [mayDiscard]
  split
  next => exact keeps_display _ _
  next => exact .refl w

/-- Changes are given up only where the user was asked and agreed. -/
theorem agreed_of_mayDiscard {w : Window} {answers : Answers}
    (may : (w.mayDiscard answers).2 = true) (modified : w.editor.document.modified = true)
    {after : Window} {more : List Dialog}
    (dialogs : after.dialogs = (w.mayDiscard answers).1.dialogs ++ more) :
    w.Agreed answers after := by
  rw [mayDiscard, if_pos modified] at may dialogs
  refine ⟨may, more, ?_⟩
  rw [dialogs]
  exact List.append_assoc _ _ _

/-! ### Opening -/

theorem keeps_load {w : Window} {path : Path} {error : ReadError}
    (failed : w.disk.readText path = .error error) : w.Keeps (w.load path).1 := by
  rw [load, failed]
  exact ⟨rfl, rfl, rfl, rfl⟩

theorem load_ok {w : Window} {path : Path} {text : Text} (found : w.disk.readText path = .ok text) :
    (w.load path).1 = (w.onEditor (·.setText text)).setCurrentFile (some path) := by
  rw [load, found]

theorem outcome_newFile (w : Window) (answers : Answers) :
    Outcome w answers .newFile (w.newFile answers) := by
  have asked := w.keeps_mayDiscard answers
  show Outcome w answers .newFile
    (if (w.mayDiscard answers).2 = true then
      ((w.mayDiscard answers).1.onEditor (·.setText [])).setCurrentFile none
    else (w.mayDiscard answers).1)
  split
  next may =>
    refine .emptied (fun modified => ?_) (presents_setText _ List.not_mem_nil _) asked.disk_eq
    exact agreed_of_mayDiscard may modified (List.append_nil _).symm
  next => exact .kept asked (by simp [WindowCommand.Saves])

theorem outcome_openFile (w : Window) (answers : Answers) :
    Outcome w answers .openFile (w.openFile answers) := by
  have asked := w.keeps_mayDiscard answers
  have shown := asked.trans (keeps_display _ (.openFile "Open File" Dialect.dialogFilter))
  have unsaved {after : Window} (keeps : w.Keeps after) : Outcome w answers .openFile after :=
    .kept keeps (by simp [WindowCommand.Saves])
  rw [openFile]
  cases chosen : chosenPath? answers.openPath with
  | none =>
      show Outcome w answers .openFile
        (if (w.mayDiscard answers).2 = true then (w.mayDiscard answers).1.display _
        else (w.mayDiscard answers).1)
      split
      next => exact unsaved shown
      next => exact unsaved asked
  | some path =>
      show Outcome w answers .openFile
        (if (w.mayDiscard answers).2 = true then
          (((w.mayDiscard answers).1.display _).load path).1
        else (w.mayDiscard answers).1)
      split
      next may =>
        cases found : w.disk.readText path with
        | error error => exact unsaved (shown.trans (keeps_load (shown.disk_eq ▸ found)))
        | ok text =>
            rw [load_ok (shown.disk_eq ▸ found)]
            refine .opened (fun modified => ?_) chosen found
              (presents_setText _ (Disk.not_mem_of_readText found) _) shown.disk_eq
            exact agreed_of_mayDiscard may modified rfl
      next => exact unsaved asked

/-! ### Saving -/

theorem write_ok {w : Window} {path : Path} {disk : Disk}
    (written : w.disk.writeText path w.editor.text = .ok disk) :
    w.write path =
      .ok ({ w with disk := disk }.onEditor fun e => e.onDocument Document.markSaved, true) := by
  rw [write, written]

/-- A file that cannot be written changes nothing: the user is told, or the command is given up. -/
theorem keeps_write {w : Window} {path : Path} {fault : Fault}
    (failed : w.disk.writeText path w.editor.text = .error fault) {next : Window × Bool → Window}
    (idle : ∀ after, next (after, false) = after) :
    w.Keeps (settled ((w.write path).map next)) := by
  rw [write, failed]
  cases fault with
  | nullInName => exact .refl w
  | notFound | notDirectory | isDirectory | nameTooLong | refused =>
      show w.Keeps (next (_, false))
      rw [idle]
      exact ⟨rfl, rfl, rfl, rfl⟩

/-- A file that cannot be written is a failure to save. -/
theorem fails_of_writeText {w : Window} {disk : Disk} {answers : Answers} {command : WindowCommand}
    {path : Path} {fault : Fault} (saves : command.Saves)
    (asked : w.target? answers command = some path)
    (failed : disk.writeText path w.editor.text = .error fault) : w.Fails disk answers command := by
  rcases saves with rfl | rfl <;> exact ⟨path, asked, fault, failed⟩

theorem not_fails_of_writeText {w : Window} {disk after : Disk} {answers : Answers}
    {command : WindowCommand} {path : Path} (saves : command.Saves)
    (asked : w.target? answers command = some path)
    (written : disk.writeText path w.editor.text = .ok after) : ¬ w.Fails disk answers command := by
  rintro ⟨other, told, failed⟩
  cases told.symm.trans asked
  obtain ⟨fault, unwritten⟩ : ∃ fault, disk.writeText path w.editor.text = .error fault := by
    rcases saves with rfl | rfl <;> exact failed
  exact nomatch unwritten.symm.trans written

/-- Saving under a name, for either of the commands that lead to it. -/
theorem outcome_saveFileAs {w : Window} {answers : Answers} {command : WindowCommand}
    (saves : command.Saves) (asks : w.target? answers command = chosenPath? answers.savePath) :
    Outcome w answers command (settled (w.saveFileAs answers)) := by
  have shown := w.keeps_display (.saveFile "Save File As" Dialect.dialogFilter)
  rw [saveFileAs]
  cases chosen : chosenPath? answers.savePath with
  | none => exact .kept shown fun _ => .inl (asks.trans chosen)
  | some path =>
      have asked := asks.trans chosen
      cases written : w.disk.writeText path w.editor.text with
      | error fault =>
          exact .kept (shown.trans (keeps_write (w := w.display _) written fun after => rfl))
            fun _ => .inr (fails_of_writeText saves asked written)
      | ok disk =>
          dsimp only
          rw [write_ok (w := w.display _) written]
          exact .saved saves asked written
            ⟨rfl, rfl, fun _ => modified_of_markSaved, rfl, titleFor_eq (some path)⟩

theorem outcome_saveFile {w : Window} (titled : w.title = fileTitle w.currentFile)
    (answers : Answers) : Outcome w answers .saveFile (settled (w.saveFile answers)) := by
  rw [saveFile]
  cases current : w.currentFile with
  | none =>
      refine outcome_saveFileAs (.inl rfl) ?_
      rw [target?, current]
      rfl
  | some path =>
      have asked : w.target? answers .saveFile = some path := by
        rw [target?, current]
        rfl
      rw [current] at titled
      cases written : w.disk.writeText path w.editor.text with
      | error fault =>
          exact .kept (keeps_write written fun after => rfl)
            fun saves => .inr (fails_of_writeText saves asked written)
      | ok disk =>
          dsimp only
          rw [write_ok written]
          exact .saved (.inl rfl) asked written
            ⟨rfl, rfl, fun _ => modified_of_markSaved, current, titled⟩

/-- **What one step can do.** -/
theorem outcome_run {w : Window} (titled : w.title = fileTitle w.currentFile) (answers : Answers)
    {command : WindowCommand} (byUser : command.ByUser) :
    Outcome w answers command (w.run [(command, answers)]) := by
  rw [run_singleton]
  cases command with
  | edit edit =>
      rw [perform]
      cases done : w.editor.perform edit with
      | error cause => exact .edited (.refl _) rfl rfl rfl
      | ok editor =>
          have edits := w.editor.edits_perform byUser done
          exact .edited edits rfl rfl rfl
  | newFile => exact w.outcome_newFile answers
  | openFile => exact w.outcome_openFile answers
  | saveFile => exact outcome_saveFile titled answers
  | saveFileAs => exact outcome_saveFileAs (.inr rfl) rfl
  | close => exact .kept (w.keeps_mayDiscard answers) (by simp [WindowCommand.Saves])
  | _ => exact nomatch byUser

/-- A command that is cancelled or fails changes nothing. -/
theorem Outcome.keeps {w after : Window} {answers : Answers} {command : WindowCommand}
    (outcome : Outcome w answers command after)
    (without : w.Cancels answers command ∨ w.Fails w.disk answers command) : w.Keeps after := by
  rcases without with ⟨kind, untold⟩ | fails
  · cases outcome with
    | kept keeps => exact keeps
    | edited => rcases kind with other | other | other <;> exact nomatch other
    | emptied => rcases kind with other | other | other <;> exact nomatch other
    | opened _ asked => exact nomatch untold.symm.trans asked
    | saved _ asked => exact nomatch untold.symm.trans asked
  · have ⟨path, told, failed⟩ := fails
    cases outcome with
    | kept keeps => exact keeps
    | edited => exact nomatch told
    | emptied => exact nomatch told
    | opened _ asked found =>
        obtain ⟨error, unread⟩ := failed
        cases told.symm.trans asked
        exact nomatch unread.symm.trans found
    | saved saves asked written => exact absurd fails (not_fails_of_writeText saves asked written)

/-- **A step does what its command does on the window's disk, or is refused and changes
nothing.** -/
theorem Step.outcome_or_keeps {w after : Window} {command : WindowCommand} {answers : Answers}
    {seen : Disk} (step : Step w command answers seen after)
    (titled : w.title = fileTitle w.currentFile) (byUser : command.ByUser) :
    (seen = w.disk ∧ Outcome w answers command after) ∨
      (w.Fails seen answers command ∧ w.Keeps after) := by
  cases step with
  | performed own => exact .inl ⟨own, outcome_run titled answers byUser⟩
  | refused fails =>
      have keeps := (outcome_run (w := { w with disk := seen }) titled answers byUser).keeps
        (.inr fails)
      exact .inr ⟨fails, keeps.document_eq, keeps.currentFile_eq, keeps.title_eq, rfl⟩

/-! ### Windows that can be reached -/

/-- Whether a text is what a document shows of a file on a disk, or empty where there is no file. It is
the very content of the file if no character of that is shown otherwise. -/
def Holds (disk : Disk) (text : Text) : Option Path → Prop
  | some path => ∃ content, disk.readText path = .ok content ∧ text = Text.shown content ∧
      ((∀ c ∈ content, c ∉ Text.disguised) → text = content)
  | none => text = []

theorem holds_of_readText {disk : Disk} {path : Path} {content : Text}
    (found : disk.readText path = .ok content) : Holds disk (Text.shown content) (some path) := by
  refine ⟨content, found, rfl, fun plain => Text.shown_eq_self_iff.mpr fun c member => ?_⟩
  exact Text.shownChar_eq_self_iff.mpr (plain c member)

/-- A text that a document shows is read as it was written. -/
theorem holds_of_writeText {w : Window} {disk now : Disk} {path : Path}
    (written : disk.writeText path w.editor.text = .ok now) :
    Holds now w.editor.text (some path) := by
  have free : '\r' ∉ w.editor.text := Text.not_mem_shown (by decide)
  have holds := holds_of_readText (Disk.readText_of_writeText free written)
  rwa [Editor.text, Document.text, Text.shown_shown] at holds

/-- What holds between a window and its file. Whatever the document can go back to is saved if it
counts as unmodified. -/
structure Intact (w : Window) : Prop where
  title_eq : w.title = fileTitle w.currentFile
  stored : ∀ revision ∈ w.editor.document.revisions, revision.modified = false →
    Holds w.disk (Text.shown revision.held) w.currentFile

theorem Intact.of_keeps {before after : Window} (intact : before.Intact)
    (keeps : before.Keeps after) : after.Intact where
  title_eq := by
    rw [keeps.title_eq, keeps.currentFile_eq]
    exact intact.title_eq
  stored := by
    rw [keeps.disk_eq, keeps.document_eq, keeps.currentFile_eq]
    exact intact.stored

theorem Presents.intact {w : Window} {text : Text} {file : Option Path}
    (presents : w.Presents text file) (stored : Holds w.disk text file) : w.Intact where
  title_eq := by
    rw [presents.title_eq, presents.currentFile_eq]
  stored revision member unmodified := by
    rw [presents.currentFile_eq]
    rcases List.mem_cons.mp member with rfl | other
    · show Holds w.disk w.editor.text file
      rw [presents.text_eq]
      exact stored
    · exact absurd (presents.alone revision other) (unmodified ▸ Bool.false_ne_true)

/-- What a step can do leaves a window intact. -/
theorem Outcome.intact {w after : Window} {answers : Answers} {command : WindowCommand}
    (outcome : Outcome w answers command after) (intact : w.Intact) : after.Intact := by
  cases outcome with
  | edited edits file title disk =>
      refine ⟨?_, fun revision member unmodified => ?_⟩
      · rw [title, file]
        exact intact.title_eq
      · rw [disk, file]
        exact intact.stored revision (edits revision member unmodified) unmodified
  | kept keeps => exact intact.of_keeps keeps
  | emptied _ presents => exact presents.intact rfl
  | opened _ _ found presents disk =>
      exact presents.intact (disk.symm ▸ holds_of_readText found)
  | saved _ _ written presents => exact presents.intact (holds_of_writeText written)

/-- A window that was just started shows nothing. -/
theorem intact_start {limits : NestingLimits} {disk : Disk} {settingsPath : Path} {w : Window}
    (started : Window.start disk settingsPath limits = .ok w) : w.Intact := by
  have presents : w.Presents [] none := by
    rw [start] at started
    cases loaded : Settings.load disk settingsPath limits with
    | error cause => rw [loaded] at started; cases started
    | ok found =>
        rw [loaded] at started
        obtain ⟨settings, log⟩ := found
        dsimp only [ofSettings, Editor.setFontSizeFrom] at started
        cases size : settings.fontSize.toInteger with
        | error cause => rw [size] at started; cases started
        | ok points =>
            rw [size] at started
            exact Except.ok.inj started ▸ ⟨rfl, rfl, List.forall_mem_nil _, rfl, rfl⟩
  exact presents.intact rfl

theorem intact_load {w : Window} (intact : w.Intact) (path : Path) : (w.load path).1.Intact := by
  cases found : w.disk.readText path with
  | error error => exact intact.of_keeps (keeps_load found)
  | ok text =>
      rw [load_ok found]
      exact (presents_setText w (Disk.not_mem_of_readText found) (some path)).intact
        (holds_of_readText found)

/-- A program that was started with a file or without. -/
theorem intact_launch {limits : NestingLimits} {disk : Disk} {home : Path} {arguments : List Text}
    {w : Window} (launched : Startup.launch disk home arguments limits = .ok w) : w.Intact := by
  rw [Startup.launch] at launched
  cases started : Window.start disk (Startup.settingsPath home) limits with
  | error error => rw [started] at launched; exact nomatch launched
  | ok window =>
      rw [started] at launched
      have same := Except.ok.inj launched
      cases arguments with
      | nil => exact same ▸ intact_start started
      | cons file others => exact same ▸ intact_load (intact_start started) _

/-- **Every window that can be reached is intact.** -/
theorem Reachable.intact {w : Window} (reachable : Reachable w) : w.Intact := by
  induction reachable with
  | launched _ _ _ _ launched => exact intact_launch launched
  | @unloaded _ _ seen _ _ _ w launched failed =>
      have keeps := keeps_load (w := { w with disk := seen }) failed
      exact (intact_launch launched).of_keeps
        ⟨keeps.document_eq, keeps.currentFile_eq, keeps.title_eq, rfl⟩
  | step _ byUser step ih =>
      rcases step.outcome_or_keeps ih.title_eq byUser with ⟨-, outcome⟩ | ⟨-, keeps⟩
      · exact outcome.intact ih
      · exact ih.of_keeps keeps

theorem run_cons (w : Window) (command : WindowCommand) (answers : Answers)
    (rest : List (WindowCommand × Answers)) :
    w.run ((command, answers) :: rest) = (w.run [(command, answers)]).run rest := by
  rw [run_singleton, run]
  cases w.perform answers command <;> rfl

/-- A run of what the user does leads from a window that can be reached to another one. -/
theorem Reachable.run {w : Window} (reachable : Reachable w)
    {commands : List (WindowCommand × Answers)}
    (byUser : ∀ entry ∈ commands, entry.1.ByUser) : Reachable (w.run commands) := by
  induction commands generalizing w with
  | nil => exact reachable
  | cons entry rest ih =>
      rw [run_cons]
      apply ih
      · exact .step reachable (byUser entry List.mem_cons_self) (.performed rfl)
      · exact fun later member => byUser later (List.mem_cons_of_mem entry member)

/-! ### No work is lost -/

/-- What a step of the user, which sees the disk `seen`, does about the work in a window. -/
structure SafeStep (w : Window) (command : WindowCommand) (answers : Answers) (seen : Disk)
    (after : Window) : Prop where
  /-- A new or an opened file takes the place of a modified text only where the user agreed. -/
  replaced : w.editor.document.modified = true → command = .newFile ∨ command = .openFile →
    ¬ w.Agreed answers after → w.Keeps after
  /-- Saving and closing leave the text alone. -/
  text_eq : command.Saves ∨ command = .close → after.editor.text = w.editor.text
  /-- Opening or saving that is cancelled or fails changes nothing. -/
  failed : w.Cancels answers command ∨ w.Fails seen answers command → w.Keeps after
  /-- Saving that neither is cancelled nor fails puts the text on the disk. -/
  saved (path : Path) (disk : Disk) : command.Saves → w.target? answers command = some path →
    seen.writeText path w.editor.text = .ok disk →
    after.Presents w.editor.text (some path) ∧ after.disk = disk

/-- A window in which no work is lost: it tells which file it shows, what does not count as modified
is on the disk, it is closed on changes only where the user agreed, and every step is safe. -/
structure Safe (w : Window) : Prop where
  title_eq : w.title = fileTitle w.currentFile
  stored : w.editor.document.modified = false → Holds w.disk w.editor.text w.currentFile
  closed (answers : Answers) : w.editor.document.modified = true → (w.close answers).2 = true →
    w.Agreed answers (w.close answers).1
  steps (command : WindowCommand) (answers : Answers) (seen : Disk) (after : Window) :
    command.ByUser → Step w command answers seen after → SafeStep w command answers seen after

/-- A step that changes nothing is safe if it was not to save, or could not. -/
theorem Keeps.safeStep {w after : Window} {command : WindowCommand} {answers : Answers}
    {seen : Disk} (keeps : w.Keeps after)
    (unsaved : command.Saves → w.target? answers command = none ∨ w.Fails seen answers command) :
    SafeStep w command answers seen after where
  replaced _ _ _ := keeps
  text_eq _ := keeps.text_eq
  failed _ := keeps
  saved path disk saves asked written := by
    rcases unsaved saves with untold | fails
    · exact nomatch untold.symm.trans asked
    · exact absurd fails (not_fails_of_writeText saves asked written)

/-- Every outcome is safe. -/
theorem Outcome.safeStep {w after : Window} {command : WindowCommand} {answers : Answers}
    (outcome : Outcome w answers command after) : SafeStep w command answers w.disk after := by
  have failed := outcome.keeps
  cases outcome with
  | kept keeps unsaved => exact keeps.safeStep unsaved
  | edited => refine ⟨?_, ?_, failed, ?_⟩ <;> simp [WindowCommand.Saves]
  | emptied agreed =>
      refine ⟨fun modified _ refused => absurd (agreed modified) refused, ?_, failed, ?_⟩ <;>
        simp [WindowCommand.Saves]
  | opened agreed =>
      refine ⟨fun modified _ refused => absurd (agreed modified) refused, ?_, failed, ?_⟩ <;>
        simp [WindowCommand.Saves]
  | saved saves asked written presents =>
      refine ⟨fun _ kind => ?_, fun _ => presents.text_eq, failed, fun path disk _ told done => ?_⟩
      · rcases saves with rfl | rfl <;> simp at kind
      · cases asked.symm.trans told
        exact ⟨presents, Except.ok.inj (written.symm.trans done)⟩

end Window

end LispEditor
