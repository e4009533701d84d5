import LispEditor.Window.Basic
import LispEditor.Proofs.JsonRoundTrip

/-!
# Settings as they are loaded

A settings file may hold anything at all. Whatever it holds, settings that are loaded have a value
for every name, and their indent width is a whole number within its bounds. Most of what is wrong
with a file is passed over. This module tells what is not: a path that the disk cannot be asked for,
values too deep in each other to be read, an infinite indent width, one that is no number and too deep
to be shown, and for the window a font size that is no whole number. All of this holds on every
machine, however deep it lets values lie in each other.

* `Settings.load_eq_error_iff`: why settings are not loaded.
* `Settings.loaded_of_load`, `Settings.Loaded.sound`: what is loaded otherwise.
* `Window.opened_of_start`: a window that was just opened looks as its settings say.
* `Window.starts_iff`: which settings files a window can be opened with.
* `Window.not_starts_infinite_width`: one that it cannot be opened with.
-/

namespace LispEditor

namespace Settings

/-! ### The indent width -/

theorem toInteger_eq_infinite {value : JsonValue} (failed : value.toInteger = .error .infinite) :
    ∃ negative, value = .float (.infinite negative) := by
  cases value with
  | float number =>
      cases number with
      | infinite negative => exact ⟨negative, rfl⟩
      | finite negative significand exponent => exact nomatch failed
      | nan => exact nomatch failed
  | string written =>
      rw [JsonValue.toInteger] at failed
      split at failed <;> exact nomatch failed
  | null => exact nomatch failed
  | bool truth => exact nomatch failed
  | integer n => exact nomatch failed
  | array items => exact nomatch failed
  | object members => exact nomatch failed

/-- The only values that fail as an indent width are the infinite ones. -/
theorem toIndentWidth_eq_error_iff {value : JsonValue} {error : IntegerError} :
    toIndentWidth value = .error error ↔
      error = .infinite ∧ ∃ negative, value = .float (.infinite negative) := by
  constructor
  · intro failed
    unfold toIndentWidth at failed
    split at failed
    next cause =>
      cases failed
      exact ⟨rfl, toInteger_eq_infinite cause⟩
    next => exact nomatch failed
    next => split at failed <;> exact nomatch failed
  · rintro ⟨rfl, negative, rfl⟩
    rfl

/-- Any other value that is no whole number gives way to the default, and this is noted. -/
theorem toIndentWidth_of_error {value : JsonValue} {error : IntegerError}
    (failed : value.toInteger = .error error) (finite : error ≠ .infinite) :
    toIndentWidth value = .ok (defaultIndentWidth, [.widthInvalid]) := by
  unfold toIndentWidth
  cases error with
  | infinite => exact absurd rfl finite
  | notANumeral | tooManyDigits | nan | wrongType => rw [failed]

/-- A value is shown in the log exactly if it is no whole number. -/
theorem contains_widthInvalid_iff {value : JsonValue} {width : Int} {log : List LogEvent}
    (taken : toIndentWidth value = .ok (width, log)) :
    log.contains .widthInvalid = true ↔ ∃ error, value.toInteger = .error error := by
  unfold toIndentWidth at taken
  split at taken
  next => exact nomatch taken
  next error _ failed =>
    cases taken
    exact ⟨fun _ => ⟨error, failed⟩, fun _ => rfl⟩
  next number read =>
    have quiet : log.contains .widthInvalid = false := by
      split at taken <;> cases taken <;> rfl
    rw [quiet, read]
    simp

/-- What is taken for an indent width is one. -/
theorem bounds_of_toIndentWidth {value : JsonValue} {width : Int} {log : List LogEvent}
    (taken : toIndentWidth value = .ok (width, log)) :
    minIndentWidth ≤ width ∧ width ≤ maxIndentWidth := by
  have usual : minIndentWidth ≤ defaultIndentWidth ∧ defaultIndentWidth ≤ maxIndentWidth := by
    decide
  unfold toIndentWidth at taken
  split at taken
  next => exact nomatch taken
  next => exact (Prod.mk.inj (Except.ok.inj taken)).1 ▸ usual
  next =>
    split at taken
    next within => exact (Prod.mk.inj (Except.ok.inj taken)).1 ▸ within
    next => exact (Prod.mk.inj (Except.ok.inj taken)).1 ▸ usual

/-- An indent width within its bounds is taken as it is. -/
theorem toIndentWidth_integer {width : Int}
    (within : minIndentWidth ≤ width ∧ width ≤ maxIndentWidth) :
    toIndentWidth (.integer width) = .ok (width, []) := by
  unfold toIndentWidth
  exact if_pos within

/-! ### What is loaded -/

/-- Settings in which every name has a value, and the indent width is one. -/
structure Sound (settings : Settings) : Prop where
  complete : ∀ key ∈ defaults.map Prod.fst, (settings.get? key).isSome
  width : ∃ width, settings.get? "indent_width" = some (.integer width) ∧
    minIndentWidth ≤ width ∧ width ≤ maxIndentWidth

/-- The file at a path can be read and holds an object with these members. Keys that differ only in
halves of characters count as one. -/
def Stored (limits : NestingLimits) (disk : Disk) (path : Path) (members : JsonMembers) : Prop :=
  ∃ text, disk.readText path = .ok text ∧
    JsonValue.read (limits.reading + 1) text = .ok (.object members)

/-- The settings that the file at a path makes: those of its members over the defaults, with the
indent width as a number, or the defaults alone. -/
inductive Loaded (limits : NestingLimits) (disk : Disk) (path : Path) : Settings → Prop
  | stored {members : JsonMembers} {width : Int} {log : List LogEvent} :
      Stored limits disk path members →
      toIndentWidth ((members.get? "indent_width").getD (.integer defaultIndentWidth)) =
        .ok (width, log) →
      Loaded limits disk path ((defaults.update members).put "indent_width" (.integer width))
  | absent : (∀ members, ¬ Stored limits disk path members) → Loaded limits disk path defaults

/-- Why the disk cannot be asked for a path: the path or a part of it is too long, or the way there is
refused, with an answer that does not just say that there is nothing. -/
inductive Unreachable (disk : Disk) (path : Path) : Fault → Prop
  | nameTooLong : disk.locate path = .error .nameTooLong → Unreachable disk path .nameTooLong
  | refused {refusal : Refusal} : disk.locate path = .error (.refused refusal) →
      refusal.code ∉ [2, 9, 20, 40] → Unreachable disk path (.refused refusal)

/-- Why the settings at a path are not loaded. -/
inductive Hinders (limits : NestingLimits) (disk : Disk) (path : Path) : Failure → Prop
  /-- The disk cannot be asked for the path. -/
  | path {fault : Fault} : Unreachable disk path fault →
      Hinders limits disk path (.file fault path)
  /-- Values lie too deep in each other to be read. -/
  | nesting {text : Text} {container : JsonContainer} : disk.readText path = .ok text →
      JsonValue.read (limits.reading + 1) text = .error (.tooDeep container) →
      Hinders limits disk path (.nesting (.reading container))
  /-- The indent width is infinite. -/
  | width {members : JsonMembers} {negative : Bool} : Stored limits disk path members →
      members.get? "indent_width" = some (.float (.infinite negative)) →
      Hinders limits disk path (.number .infinite)
  /-- The indent width is no number, and values lie too deep in it to be shown. -/
  | showing {members : JsonMembers} {value : JsonValue} {error : IntegerError} {most : Nat} :
      Stored limits disk path members → members.get? "indent_width" = some value →
      value.toInteger = .error error → error ≠ .infinite →
      limits.showing = some most → most < value.height →
      Hinders limits disk path (.nesting .showing)

/-- What a disk says if it is asked for a path that it cannot be asked for. -/
theorem contains_eq_error_iff {disk : Disk} {path : Path} {fault : Fault} :
    disk.contains path = .error fault ↔ Unreachable disk path fault := by
  unfold Disk.contains
  constructor
  · intro failed
    split at failed
    next => exact nomatch failed
    next located =>
      split at failed
      next => exact nomatch failed
      next other =>
        cases failed
        cases fault with
        | nameTooLong => exact .nameTooLong located
        | refused refusal =>
            exact .refused located (by simpa [Fault.isAbsence, Fault.code?] using other)
        | notFound => exact absurd rfl other
        | notDirectory => exact absurd rfl other
        | nullInName => exact absurd rfl other
        | isDirectory => exact absurd rfl (Disk.locate_ne_isDirectory located)
  · intro unreachable
    cases unreachable with
    | nameTooLong located => rw [located]; rfl
    | refused located other =>
        rw [located]
        simp [Fault.isAbsence, Fault.code?] at other ⊢
        exact other

theorem Stored.distinct {limits : NestingLimits} {disk : Disk} {path : Path} {members : JsonMembers}
    (stored : Stored limits disk path members) : members.Distinct := by
  obtain ⟨text, -, found⟩ := stored
  cases JsonValue.readable_of_read found with
  | object distinct => exact distinct

theorem Stored.eq {limits : NestingLimits} {disk : Disk} {path : Path} {members others : JsonMembers}
    (stored : Stored limits disk path members) (again : Stored limits disk path others) :
    members = others := by
  obtain ⟨text, found, holds⟩ := stored
  obtain ⟨text', found', holds'⟩ := again
  cases found.symm.trans found'
  cases holds.symm.trans holds'
  rfl

/-- What is under a key once the members of a file have gone over the defaults. -/
theorem get?_update_defaults {members : JsonMembers} (distinct : members.Distinct) (key : String) :
    (defaults.update members).get? key = (members.get? key).or (defaults.get? key) :=
  JsonMembers.get?_update defaults distinct key

theorem given_eq {members : JsonMembers} (distinct : members.Distinct) :
    ((defaults.update members).get? "indent_width").getD (.integer defaultIndentWidth) =
      (members.get? "indent_width").getD (.integer defaultIndentWidth) := by
  rw [get?_update_defaults distinct]
  cases members.get? "indent_width" <;> rfl

/-- What is given for an indent width and is no whole number was found in the file. -/
theorem get?_of_given {members : JsonMembers} {error : IntegerError}
    (failed : ((members.get? "indent_width").getD (.integer defaultIndentWidth)).toInteger =
      .error error) :
    members.get? "indent_width" =
      some ((members.get? "indent_width").getD (.integer defaultIndentWidth)) := by
  cases found : members.get? "indent_width" with
  | none => rw [found] at failed; exact nomatch failed
  | some value => rfl

theorem contains_of_readText {disk : Disk} {path : Path} {text : Text}
    (found : disk.readText path = .ok text) : disk.contains path = .ok true := by
  unfold Disk.readText Disk.read at found
  unfold Disk.contains
  cases place : disk.locate path with
  | error fault => simp [place] at found
  | ok location =>
      cases entry : disk.entry? location with
      | none => simp [place, entry] at found
      | some here => simp [entry]

section Loading

variable {limits : NestingLimits} {disk : Disk} {path : Path}

theorem load_of_readText {text : Text} (found : disk.readText path = .ok text) :
    load disk path limits = ofText limits text := by
  simp only [load, contains_of_readText found, found]

/-- What loading answers: settings that the file makes, or why it makes none. -/
inductive Answers (limits : NestingLimits) (disk : Disk) (path : Path) :
    Except Failure (Settings × List LogEvent) → Prop
  | loaded {settings : Settings} {log : List LogEvent} :
      Loaded limits disk path settings → Answers limits disk path (.ok (settings, log))
  | hindered {failure : Failure} :
      Hinders limits disk path failure → Answers limits disk path (.error failure)

/-- Whether an indent width that is no number is in the way of loading. -/
theorem not_permits_iff {value : JsonValue} :
    limits.permits value = false ↔ ∃ most, limits.showing = some most ∧ most < value.height := by
  unfold NestingLimits.permits
  cases limits.showing <;> simp

/-- The answer for a file that holds an object. -/
theorem answers_ofMembers {members : JsonMembers} (stored : Stored limits disk path members) :
    Answers limits disk path (ofMembers limits members) := by
  have given := given_eq stored.distinct
  simp only [ofMembers, given]
  split
  next cause taken =>
    obtain ⟨rfl, negative, infinite⟩ := toIndentWidth_eq_error_iff.mp taken
    have failed : ((members.get? "indent_width").getD (.integer defaultIndentWidth)).toInteger =
        .error .infinite := by
      rw [infinite]
      rfl
    exact .hindered (.width stored ((get?_of_given failed).trans (congrArg some infinite)))
  next width log taken =>
    split
    next deep =>
      obtain ⟨invalid, unshown⟩ := Bool.and_eq_true_iff.mp deep
      obtain ⟨error, failed⟩ := (contains_widthInvalid_iff taken).mp invalid
      obtain ⟨most, shown, high⟩ := not_permits_iff.mp (Bool.not_eq_true' _ ▸ unshown)
      have finite : error ≠ .infinite := by
        rintro rfl
        obtain ⟨negative, infinite⟩ := toInteger_eq_infinite failed
        rw [infinite] at taken
        exact nomatch taken
      exact .hindered (.showing stored (get?_of_given failed) failed finite shown high)
    next => exact .loaded (.stored stored taken)

/-- The answer for a file that can be read. -/
theorem answers_ofText {text : Text} (found : disk.readText path = .ok text) :
    Answers limits disk path (ofText limits text) := by
  have absent {log : List LogEvent}
      (other : ∀ members, JsonValue.read (limits.reading + 1) text ≠ .ok (.object members)) :
      Answers limits disk path (.ok (defaults, log)) := by
    refine .loaded (.absent ?_)
    rintro members ⟨same, again, holds⟩
    cases found.symm.trans again
    exact other members holds
  unfold ofText
  split
  next malformed => exact absent fun members holds => nomatch malformed.symm.trans holds
  next deep => exact .hindered (.nesting found deep)
  next members holds => exact answers_ofMembers ⟨text, found, holds⟩
  next value other holds =>
    refine absent fun members object => ?_
    cases holds.symm.trans object
    exact other members rfl

/-- **What is loaded, or why nothing is.** -/
theorem answers_load (limits : NestingLimits) (disk : Disk) (path : Path) :
    Answers limits disk path (load disk path limits) := by
  have absent {log : List LogEvent} (unread : ∀ text, disk.readText path ≠ .ok text) :
      Answers limits disk path (.ok (defaults, log)) :=
    .loaded (.absent fun members ⟨text, found, _⟩ => unread text found)
  unfold load
  split
  next fault failed => exact .hindered (.path (contains_eq_error_iff.mp failed))
  next missing =>
    exact absent fun text found => nomatch missing.symm.trans (contains_of_readText found)
  next =>
    split
    next error failed => exact absent fun text found => nomatch failed.symm.trans found
    next text found => exact answers_ofText found

theorem loaded_of_load {settings : Settings} {log : List LogEvent}
    (done : load disk path limits = .ok (settings, log)) : Loaded limits disk path settings := by
  have answer := answers_load limits disk path
  rw [done] at answer
  cases answer with
  | loaded loaded => exact loaded

/-- **Settings are not loaded exactly for the reasons that hinder it.** -/
theorem load_eq_error_iff {failure : Failure} :
    load disk path limits = .error failure ↔ Hinders limits disk path failure := by
  constructor
  · intro failed
    have answer := answers_load limits disk path
    rw [failed] at answer
    cases answer with
    | hindered hinders => exact hinders
  · intro hinders
    cases hinders with
    | path unreachable => simp only [load, contains_eq_error_iff.mpr unreachable]
    | nesting found deep => simp only [load_of_readText found, ofText, deep]
    | width stored infinite =>
        have given := given_eq stored.distinct
        obtain ⟨text, found, holds⟩ := stored
        simp only [load_of_readText found, ofText, holds, ofMembers, given, infinite]
        rfl
    | showing stored here failed finite shown high =>
        have given := given_eq stored.distinct
        obtain ⟨text, found, holds⟩ := stored
        have taken := toIndentWidth_of_error failed finite
        have unshown := not_permits_iff.mpr ⟨_, shown, high⟩
        simp only [load_of_readText found, ofText, holds, ofMembers, given, here, Option.getD_some,
          taken, unshown]
        rfl

end Loading

/-! ### Every value is there -/

theorem sound_put {settings : Settings}
    (complete : ∀ key ∈ defaults.map Prod.fst, (settings.get? key).isSome) {width : Int}
    (within : minIndentWidth ≤ width ∧ width ≤ maxIndentWidth) :
    Sound (settings.put "indent_width" (.integer width)) where
  complete key known := by
    rw [JsonMembers.get?_put]
    split
    · rfl
    · exact complete key known
  width := ⟨width, JsonMembers.get?_put_self _ _ _, within⟩

theorem isSome_defaults : ∀ key ∈ defaults.map Prod.fst, (defaults.get? key).isSome := by
  intro key known
  simp only [defaults, List.map_cons, List.map_nil, List.mem_cons, List.not_mem_nil, or_false]
    at known
  rcases known with rfl | rfl | rfl | rfl <;> rfl

/-- **Loaded settings have a value for every name, and their indent width is one.** -/
theorem Loaded.sound {limits : NestingLimits} {disk : Disk} {path : Path} {settings : Settings}
    (loaded : Loaded limits disk path settings) : settings.Sound := by
  cases loaded with
  | stored stored taken =>
      refine sound_put (fun key known => ?_) (bounds_of_toIndentWidth taken)
      rw [get?_update_defaults stored.distinct, Option.isSome_or, isSome_defaults key known,
        Bool.or_true]
  | absent => exact ⟨isSome_defaults, defaultIndentWidth, rfl, by decide⟩

end Settings

namespace Window

/-! ### Windows that were just opened -/

/-- A window looks as its settings say. -/
structure Reflects (w : Window) : Prop where
  indentWidth_eq : w.editor.indentWidth = w.settings.indentWidth
  fontSize_eq : ∃ points, w.settings.fontSize.toInteger = .ok points ∧
    w.editor.fontSize = max Editor.minFontSize (min Editor.maxFontSize points)
  wordWrap_eq : w.editor.wordWrap = w.settings.wordWrap
  wrapChecked_eq : w.wrapChecked = w.settings.wordWrap
  editorPalette_eq : w.editor.palette = w.settings.theme.palette
  palette_eq : w.palette = w.settings.theme.palette
  darkChecked_eq : w.darkChecked = (w.settings.theme == Theme.dark)
  lightChecked_eq : w.lightChecked = (w.settings.theme == Theme.light)

/-- A window that was opened on a disk and has seen nothing yet. -/
structure Opened (w : Window) (limits : NestingLimits) (disk : Disk) (settingsPath : Path) :
    Prop where
  disk_eq : w.disk = disk
  settingsPath_eq : w.settingsPath = settingsPath
  document_eq : w.editor.document = .empty
  currentFile_eq : w.currentFile = none
  status_eq : w.status = ""
  loads : ∃ log, Settings.load disk settingsPath limits = .ok (w.settings, log)
  reflects : w.Reflects

section Opening

variable {limits : NestingLimits} {disk : Disk} {settingsPath : Path}

theorem Opened.loaded {w : Window} (opened : w.Opened limits disk settingsPath) :
    Settings.Loaded limits disk settingsPath w.settings := by
  obtain ⟨log, done⟩ := opened.loads
  exact Settings.loaded_of_load done

/-- **A window that was just opened looks as the settings say that were loaded.** -/
theorem opened_of_start {w : Window} (started : start disk settingsPath limits = .ok w) :
    w.Opened limits disk settingsPath := by
  unfold start at started
  split at started
  next => exact nomatch started
  next settings log done =>
    unfold ofSettings Editor.setFontSizeFrom at started
    cases size : settings.fontSize.toInteger with
    | error cause => simp only [size] at started; exact nomatch started
    | ok points =>
        simp only [size] at started
        cases started
        exact ⟨rfl, rfl, rfl, rfl, rfl, ⟨log, done⟩,
          ⟨rfl, ⟨points, size, rfl⟩, rfl, rfl, rfl, rfl, rfl, rfl⟩⟩

/-- A window can be opened with settings that were loaded, if their font size is a whole number. -/
theorem exists_start {settings : Settings} {log : List LogEvent}
    (done : Settings.load disk settingsPath limits = .ok (settings, log)) {points : Int}
    (size : settings.fontSize.toInteger = .ok points) :
    ∃ w, start disk settingsPath limits = .ok w ∧ w.settings = settings := by
  simp only [start, done, ofSettings, Editor.setFontSizeFrom, size]
  exact ⟨_, rfl, rfl⟩

/-! ### Which files a window can be opened with -/

/-- Why no window can be opened with the settings at a path: they are not loaded, or their font size
is no whole number. -/
inductive Hindered (limits : NestingLimits) (disk : Disk) (settingsPath : Path) : Prop
  | settings {failure : Failure} :
      Settings.Hinders limits disk settingsPath failure → Hindered limits disk settingsPath
  | fontSize {members : JsonMembers} {value : JsonValue} {error : IntegerError} :
      Settings.Stored limits disk settingsPath members → members.get? "font_size" = some value →
      value.toInteger = .error error → Hindered limits disk settingsPath

/-- The settings at a path are loaded, with a value for every name and an indent width, and a window
is opened with them, with a font size within its bounds. -/
structure Starts (limits : NestingLimits) (disk : Disk) (settingsPath : Path) : Prop where
  loads : ∃ settings log, Settings.load disk settingsPath limits = .ok (settings, log) ∧
    settings.Sound
  opens : ∃ w, start disk settingsPath limits = .ok w ∧
    Editor.minFontSize ≤ w.editor.fontSize ∧ w.editor.fontSize ≤ Editor.maxFontSize

/-- The font size that is loaded is the one in the file. -/
theorem fontSize_of_loaded {settings : Settings} {members : JsonMembers}
    (loaded : Settings.Loaded limits disk settingsPath settings)
    (stored : Settings.Stored limits disk settingsPath members) :
    settings.fontSize = (members.get? "font_size").getD (.integer Settings.defaultFontSize) := by
  have other : "indent_width" ≠ "font_size" := by decide
  cases loaded with
  | absent unstored => exact absurd stored (unstored members)
  | stored again taken =>
      cases again.eq stored
      rw [Settings.fontSize, JsonMembers.get?_put_of_ne _ _ other,
        Settings.get?_update_defaults stored.distinct]
      cases members.get? "font_size" <;> rfl

/-- A font size that is no whole number was found in the file. -/
theorem hindered_of_fontSize {settings : Settings} {error : IntegerError}
    (loaded : Settings.Loaded limits disk settingsPath settings)
    (failed : settings.fontSize.toInteger = .error error) : Hindered limits disk settingsPath := by
  have origin {members : JsonMembers} (stored : Settings.Stored limits disk settingsPath members) :
      Hindered limits disk settingsPath := by
    rw [fontSize_of_loaded loaded stored] at failed
    cases here : members.get? "font_size" with
    | none => rw [here] at failed; exact nomatch failed
    | some value => rw [here] at failed; exact .fontSize stored here failed
  cases loaded with
  | absent => exact nomatch failed
  | stored stored => exact origin stored

/-- What is in the way of a window is so for good. -/
theorem Hindered.not_starts (hindered : Hindered limits disk settingsPath) :
    ¬ Starts limits disk settingsPath := by
  rintro ⟨-, w, started, -⟩
  cases hindered with
  | settings hinders =>
      rw [start, Settings.load_eq_error_iff.mpr hinders] at started
      exact nomatch started
  | fontSize stored here failed =>
      have opened := opened_of_start started
      obtain ⟨points, size, -⟩ := opened.reflects.fontSize_eq
      rw [fontSize_of_loaded opened.loaded stored, here] at size
      exact nomatch failed.symm.trans size

end Opening

/-- **A window is opened with the settings at a path, and all is well with them, unless one of five
things is in the way**, on every machine. -/
theorem starts_iff (limits : NestingLimits) (disk : Disk) (settingsPath : Path) :
    Starts limits disk settingsPath ↔ ¬ Hindered limits disk settingsPath := by
  constructor
  · exact fun starts hindered => hindered.not_starts starts
  · intro free
    cases done : Settings.load disk settingsPath limits with
    | error failure => exact absurd (.settings (Settings.load_eq_error_iff.mp done)) free
    | ok result =>
        obtain ⟨settings, log⟩ := result
        have loaded := Settings.loaded_of_load done
        cases size : settings.fontSize.toInteger with
        | error error => exact absurd (hindered_of_fontSize loaded size) free
        | ok points =>
            obtain ⟨w, started, -⟩ := exists_start done size
            obtain ⟨_, _, bounded⟩ := (opened_of_start started).reflects.fontSize_eq
            refine ⟨⟨settings, log, done, loaded.sound⟩, w, started, ?_⟩
            rw [bounded]
            unfold Editor.minFontSize Editor.maxFontSize
            omega

/-- A file that gives a number beyond all others for the indent width. -/
theorem not_starts_infinite_width :
    let text : Text := ['{', '"', 'i', 'n', 'd', 'e', 'n', 't', '_', 'w', 'i', 'd', 't', 'h', '"',
      ':', ' ', '1', 'e', '9', '9', '9', '}']
    let disk := Disk.empty.put ⟨.above 0, [['s']]⟩ (.file (Utf8.encode text))
    ¬ Starts .usual disk (Path.ofText ['s']) := by
  intro text disk
  have written : Disk.empty.writeText (Path.ofText ['s']) text = .ok disk := rfl
  have stored : Settings.Stored .usual disk (Path.ofText ['s'])
      [("indent_width", .float (.infinite false))] :=
    ⟨text, Disk.readText_of_writeText (by decide) written, rfl⟩
  exact Hindered.not_starts (.settings (.width stored rfl))

end Window

end LispEditor
