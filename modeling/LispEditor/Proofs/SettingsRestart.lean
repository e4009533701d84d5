import LispEditor.Proofs.LoadedSettings
import LispEditor.Proofs.WindowFiles

/-!
# Settings outlive a window

A window reads each setting in its own way. The indent width has to be a whole number within its
bounds, a font size is brought within its bounds, anything may count as true, and any theme but the
light one is the dark one. Each command writes back what it has made of a setting. Here it is shown
that the two go together: whatever was in the file and whatever the user has changed, a window that
is opened anew looks like the one that saved its settings last.

* `Settings.load_of_stored`: settings that a window has saved are loaded as they were.
* `Window.Adjusted`: the windows in which settings are changed.
* `Window.adjustment_run`: what one change does.
* `Window.survives_of_adjusted`: what all of them come to.
* `Window.restart_looksLike`: the next window looks the same, and no other member of the file is
  lost.
-/

namespace LispEditor

namespace Settings

/-- A path that a disk cannot be asked for is one for every disk. -/
theorem save_refused {settings : Settings} {disk : Disk} {path : Path}
    (refused : settings.save disk path = .error .nullInName) (others : Settings) (other : Disk) :
    others.save other path = .error .nullInName := by
  have null : path.text.contains '\x00' = true := by
    by_contra named
    unfold save Disk.writeText Disk.write Disk.locate at refused
    rw [if_neg named] at refused
    split at refused
    next fault failed =>
      split at failed
      · cases failed
        exact nomatch refused
      · cases refused
        exact (Disk.follow_eq_error failed).2 rfl
    next => split at refused <;> exact nomatch refused
  simp only [save, Disk.writeText, Disk.write, Disk.locate, null, if_true]

/-! ### Settings that were saved -/

/-- The values that the commands of a window put under the names of settings. -/
inductive Choice : String → JsonValue → Prop
  | theme (theme : Theme) : Choice "theme" (.string theme.name)
  | fontSize {points : Int} : Editor.minFontSize ≤ points → points ≤ Editor.maxFontSize →
      Choice "font_size" (.integer points)
  | wordWrap (enabled : Bool) : Choice "word_wrap" (.bool enabled)
  | indentWidth {width : Int} : minIndentWidth ≤ width ∧ width ≤ maxIndentWidth →
      Choice "indent_width" (.integer width)

theorem Choice.known {key : String} {value : JsonValue} (choice : Choice key value) :
    key ∈ defaults.map Prod.fst := by
  cases choice <;> simp [defaults]

theorem readable_integer {n : Int} (least : 0 ≤ n) (most : n < 100) (room : Nat) :
    JsonValue.Readable room (.integer n) := by
  have digits : 10 ^ 2 ≤ 10 ^ Numeral.maxDigits := Nat.pow_le_pow_right (by decide) (by decide)
  exact .integer (Nat.lt_of_lt_of_le (by omega) digits)

theorem Choice.readable {key : String} {value : JsonValue} (choice : Choice key value)
    (room : Nat) : JsonValue.Readable room value := by
  cases choice with
  | theme theme => exact .string _
  | fontSize least most =>
      unfold Editor.minFontSize at least
      unfold Editor.maxFontSize at most
      exact readable_integer (by omega) (by omega) room
  | wordWrap enabled => exact .bool enabled
  | indentWidth within =>
      unfold minIndentWidth maxIndentWidth at within
      exact readable_integer (by omega) (by omega) room

/-- Settings that a file can hold and that are read again where values may be nested so deep. -/
abbrev Storable (limits : NestingLimits) (settings : Settings) : Prop :=
  JsonValue.Readable (limits.reading + 1) (.object settings)

section Storing

variable {limits : NestingLimits} {disk : Disk} {path : Path}

theorem Storable.put {settings : Settings} (storable : settings.Storable limits) {key : String}
    {value : JsonValue} (readable : ∀ room, JsonValue.Readable room value) :
    Storable limits (JsonMembers.put key value settings) := by
  cases storable with
  | object distinct members =>
      refine .object (JsonMembers.distinct_put distinct key value) fun member present => ?_
      rcases JsonMembers.mem_put present with rfl | old
      · exact readable _
      · exact members member old

theorem Storable.update {settings : Settings} {members : JsonMembers}
    (storable : settings.Storable limits) (newer : Storable limits members) :
    Storable limits (JsonMembers.update settings members) := by
  cases storable with
  | object distinct older =>
      cases newer with
      | object _ newer =>
          refine .object (JsonMembers.distinct_update distinct members) fun member present => ?_
          rcases JsonMembers.mem_update present with old | new
          · exact older member old
          · exact newer member new

theorem storable_defaults : Storable limits defaults := by
  have distinct : (defaults.map Prod.fst).Nodup := by decide
  refine .object distinct fun member present => ?_
  simp only [defaults, List.mem_cons, List.not_mem_nil, or_false] at present
  rcases present with rfl | rfl | rfl | rfl
  · exact .string _
  · exact readable_integer (by decide) (by decide) _
  · exact .bool true
  · exact readable_integer (by decide) (by decide) _

theorem Loaded.storable {settings : Settings} (loaded : Loaded limits disk path settings) :
    settings.Storable limits := by
  cases loaded with
  | absent => exact storable_defaults
  | stored stored taken =>
      obtain ⟨text, -, found⟩ := stored
      have merged := storable_defaults.update (JsonValue.readable_of_read found)
      exact merged.put (Choice.indentWidth (bounds_of_toIndentWidth taken)).readable

/-- Members that are no settings are loaded as they are. -/
theorem Loaded.others {settings : Settings} (loaded : Loaded limits disk path settings)
    (members : JsonMembers) (stored : Stored limits disk path members) (key : String)
    (unknown : key ∉ defaults.map Prod.fst) :
    settings.get? key = members.get? key := by
  have other : "indent_width" ≠ key := by
    rintro rfl
    exact unknown (by decide)
  cases loaded with
  | absent unstored => exact absurd stored (unstored members)
  | stored again taken =>
      cases again.eq stored
      rw [JsonMembers.get?_put_of_ne _ _ other, get?_update_defaults stored.distinct,
        JsonMembers.get?_eq_none unknown, Option.or_none]

theorem Sound.put {settings : Settings} (sound : settings.Sound) {key : String} {value : JsonValue}
    (choice : Choice key value) : Sound (JsonMembers.put key value settings) := by
  have complete : ∀ name ∈ defaults.map Prod.fst,
      (JsonMembers.get? (settings.put key value) name).isSome := by
    intro name known
    rw [JsonMembers.get?_put]
    split
    · rfl
    · exact sound.complete name known
  obtain ⟨width, here, within⟩ := sound.width
  cases choice with
  | indentWidth within => exact ⟨complete, _, JsonMembers.get?_put_self _ _ _, within⟩
  | theme =>
      exact ⟨complete, width, by rwa [JsonMembers.get?_put_of_ne _ _ (by decide)], within⟩
  | fontSize =>
      exact ⟨complete, width, by rwa [JsonMembers.get?_put_of_ne _ _ (by decide)], within⟩
  | wordWrap =>
      exact ⟨complete, width, by rwa [JsonMembers.get?_put_of_ne _ _ (by decide)], within⟩

/-- Settings that were saved are in the file. -/
theorem stored_of_save {settings : Settings} {now : Disk} (storable : settings.Storable limits)
    (saved : settings.save disk path = .ok now) : Stored limits now path settings :=
  ⟨_, Disk.readText_of_writeText (JsonValue.not_mem_textAt storable 0) saved,
    JsonValue.read_text storable⟩

/-- **Settings that are in the file are loaded as they are.** -/
theorem load_of_stored {settings : Settings} (sound : settings.Sound)
    (stored : Stored limits disk path settings) :
    ∃ loaded log, load disk path limits = .ok (loaded, log) ∧
      ∀ key, loaded.get? key = settings.get? key := by
  have distinct := stored.distinct
  obtain ⟨text, found, holds⟩ := stored
  obtain ⟨width, here, within⟩ := sound.width
  have made : ofMembers limits settings =
      .ok ((defaults.update settings).put "indent_width" (.integer width), []) := by
    simp only [ofMembers, given_eq distinct, here, Option.getD_some, toIndentWidth_integer within]
    rfl
  refine ⟨(defaults.update settings).put "indent_width" (.integer width), [], ?_, fun key => ?_⟩
  · rw [load_of_readText found]
    simp only [ofText, holds, made]
  · rw [JsonMembers.get?_put]
    split
    next same => rw [← same, here]
    next =>
      rw [get?_update_defaults distinct]
      by_cases known : key ∈ defaults.map Prod.fst
      · exact Option.or_of_isSome (sound.complete key known)
      · rw [JsonMembers.get?_eq_none known, Option.or_none]

end Storing

section Reading

variable {settings : Settings} {key : String} {value : JsonValue}

theorem theme_put_of_ne (other : key ≠ "theme") :
    Settings.theme (settings.put key value) = settings.theme := by
  rw [theme, JsonMembers.get?_put_of_ne _ _ other, theme]

theorem fontSize_put_of_ne (other : key ≠ "font_size") :
    Settings.fontSize (settings.put key value) = settings.fontSize := by
  rw [fontSize, JsonMembers.get?_put_of_ne _ _ other, fontSize]

theorem wordWrap_put_of_ne (other : key ≠ "word_wrap") :
    Settings.wordWrap (settings.put key value) = settings.wordWrap := by
  rw [wordWrap, JsonMembers.get?_put_of_ne _ _ other, wordWrap]

theorem indentWidth_put_of_ne (other : key ≠ "indent_width") :
    Settings.indentWidth (settings.put key value) = settings.indentWidth := by
  simp only [indentWidth, JsonMembers.get?_put_of_ne _ _ other]

end Reading

end Settings

namespace Window

/-! ### Windows that look alike -/

/-- Two windows show the same settings. -/
structure LooksLike (a b : Window) : Prop where
  indentWidth_eq : a.editor.indentWidth = b.editor.indentWidth
  fontSize_eq : a.editor.fontSize = b.editor.fontSize
  wordWrap_eq : a.editor.wordWrap = b.editor.wordWrap
  editorPalette_eq : a.editor.palette = b.editor.palette
  palette_eq : a.palette = b.palette
  darkChecked_eq : a.darkChecked = b.darkChecked
  lightChecked_eq : a.lightChecked = b.lightChecked
  wrapChecked_eq : a.wrapChecked = b.wrapChecked

/-- Windows that look as their settings say look alike if they find the same in them. -/
theorem Reflects.looksLike {a b : Window} (left : a.Reflects) (right : b.Reflects)
    (agree : ∀ key, a.settings.get? key = b.settings.get? key) : a.LooksLike b := by
  have theme : a.settings.theme = b.settings.theme := by simp only [Settings.theme, agree]
  have wrap : a.settings.wordWrap = b.settings.wordWrap := by simp only [Settings.wordWrap, agree]
  have width : a.settings.indentWidth = b.settings.indentWidth := by
    simp only [Settings.indentWidth, agree]
  have size : a.settings.fontSize = b.settings.fontSize := by simp only [Settings.fontSize, agree]
  obtain ⟨points, given, shown⟩ := left.fontSize_eq
  obtain ⟨points', given', shown'⟩ := right.fontSize_eq
  rw [size, given'] at given
  cases given
  exact
    { indentWidth_eq := by rw [left.indentWidth_eq, right.indentWidth_eq, width]
      fontSize_eq := by rw [shown, shown']
      wordWrap_eq := by rw [left.wordWrap_eq, right.wordWrap_eq, wrap]
      editorPalette_eq := by rw [left.editorPalette_eq, right.editorPalette_eq, theme]
      palette_eq := by rw [left.palette_eq, right.palette_eq, theme]
      darkChecked_eq := by rw [left.darkChecked_eq, right.darkChecked_eq, theme]
      lightChecked_eq := by rw [left.lightChecked_eq, right.lightChecked_eq, theme]
      wrapChecked_eq := by rw [left.wrapChecked_eq, right.wrapChecked_eq, wrap] }

/-- Where the disk, the log, the status bar or the dialogs change, the looks stay. -/
theorem Reflects.elsewhere {w : Window} (reflects : w.Reflects) (disk : Disk) (log : List LogEvent)
    (status : String) (dialogs : List Dialog) :
    Reflects { w with disk := disk, log := log, status := status, dialogs := dialogs } :=
  ⟨reflects.indentWidth_eq, reflects.fontSize_eq, reflects.wordWrap_eq, reflects.wrapChecked_eq,
    reflects.editorPalette_eq, reflects.palette_eq, reflects.darkChecked_eq,
    reflects.lightChecked_eq⟩

/-- A window whose theme was left alone looks as its settings say if all else does. -/
theorem Reflects.of_sameTheme {w v : Window} (reflects : w.Reflects) {key : String}
    {value : JsonValue} (settings_eq : v.settings = w.settings.put key value) (other : key ≠ "theme")
    (same : v.editor.palette = w.editor.palette ∧ v.palette = w.palette ∧
      v.darkChecked = w.darkChecked ∧ v.lightChecked = w.lightChecked)
    (width : v.editor.indentWidth = v.settings.indentWidth)
    (size : ∃ points, v.settings.fontSize.toInteger = .ok points ∧
      v.editor.fontSize = max Editor.minFontSize (min Editor.maxFontSize points))
    (wrap : v.editor.wordWrap = v.settings.wordWrap) (checked : v.wrapChecked = v.settings.wordWrap) :
    v.Reflects := by
  have theme : v.settings.theme = w.settings.theme := by
    rw [settings_eq, Settings.theme_put_of_ne other]
  obtain ⟨editorPalette, palette, dark, light⟩ := same
  refine ⟨width, size, wrap, checked, ?_, ?_, ?_, ?_⟩
  · rw [theme, editorPalette, reflects.editorPalette_eq]
  · rw [theme, palette, reflects.palette_eq]
  · rw [theme, dark, reflects.darkChecked_eq]
  · rw [theme, light, reflects.lightChecked_eq]

/-! ### Windows in which settings are changed -/

/-- The commands that change a setting. An indent width is within its bounds. -/
def Adjusts (answers : Answers) : WindowCommand → Prop
  | .increaseFont | .decreaseFont | .resetFont | .toggleWordWrap | .setTheme _ => True
  | .setIndentWidth width => Settings.minIndentWidth ≤ width ∧ width ≤ Settings.maxIndentWidth
  | .askIndentWidth => ∃ width, answers.integer = some width ∧
      Settings.minIndentWidth ≤ width ∧ width ≤ Settings.maxIndentWidth
  | _ => False

/-- The windows that come of opening one with the settings at a path and changing settings in it,
each with whether the last attempt to save them, if there was one, has succeeded. Between two
commands anything may happen to the disk; nobody has saved the settings on that one. -/
inductive Adjusted (limits : NestingLimits) (disk : Disk) (path : Path) :
    Window → (saved : Bool) → Prop
  | opened {w : Window} : start disk path limits = .ok w → Adjusted limits disk path w true
  | adjusted {w : Window} {saved : Bool} {command : WindowCommand} {answers : Answers} :
      Adjusted limits disk path w saved → Adjusts answers command →
      Adjusted limits disk path (w.run [(command, answers)])
        ((w.run [(command, answers)]).settings.save w.disk w.settingsPath).isOk
  | declined {w : Window} {saved : Bool} {answers : Answers} :
      Adjusted limits disk path w saved → answers.integer = none →
      Adjusted limits disk path (w.run [(.askIndentWidth, answers)]) saved
  | disturbed {w : Window} {saved : Bool} (left : Disk) :
      Adjusted limits disk path w saved → Adjusted limits disk path { w with disk := left } false

/-! ### One change -/

/-- What comes of putting a value under a name. -/
inductive Attempted (w : Window) (key : String) (value : JsonValue) :
    Except Interruption Window → Prop
  | saved {now : Disk} :
      Settings.save (w.settings.put key value) w.disk w.settingsPath = .ok now →
      Attempted w key value (.ok { w with settings := w.settings.put key value, disk := now })
  | unsaved {fault : Fault} (log : List LogEvent) (status : String) :
      Settings.save (w.settings.put key value) w.disk w.settingsPath = .error fault →
      Attempted w key value
        (.ok { w with settings := w.settings.put key value, log := log, status := status })
  | refused :
      Settings.save (w.settings.put key value) w.disk w.settingsPath = .error .nullInName →
      Attempted w key value
        (.error ⟨.file .nullInName w.settingsPath, { w with settings := w.settings.put key value }⟩)

theorem attempted_putSetting (w : Window) (key : String) (value : JsonValue) :
    w.Attempted key value (w.putSetting key value) := by
  unfold putSetting saveSettings
  dsimp only
  split
  next saved => exact .saved saved
  next refused => exact .refused refused
  next unsaved => exact .unsaved _ _ unsaved

/-- What a change of a setting does. Where the path is refused, the command is given up halfway. -/
structure Adjustment (w after : Window) : Prop where
  settingsPath_eq : after.settingsPath = w.settingsPath
  settings_eq : ∃ key value, Settings.Choice key value ∧ after.settings = w.settings.put key value
  disk_eq : ∀ now, after.settings.save w.disk w.settingsPath = .ok now → after.disk = now
  reflects : w.Reflects → after.settings.save w.disk w.settingsPath ≠ .error .nullInName →
    after.Reflects

/-- Where a window keeps its settings, and which it has, is left as it was. -/
structure KeepsStore (before after : Window) : Prop where
  settings_eq : after.settings = before.settings
  disk_eq : after.disk = before.disk
  settingsPath_eq : after.settingsPath = before.settingsPath

/-- A value is put in a window `v` that was made of `w`, and then `f` does the rest. -/
theorem Attempted.adjustment {w v : Window} {f : Window → Window} {key : String} {value : JsonValue}
    {result : Except Interruption Window} (attempted : v.Attempted key value result)
    (choice : Settings.Choice key value) (before : w.KeepsStore v)
    (after : ∀ u : Window, u.KeepsStore (f u))
    (looks : w.Reflects → ∀ disk log status, Reflects (f { v with
      settings := w.settings.put key value, disk := disk, log := log, status := status })) :
    w.Adjustment (settled (result.map f)) := by
  obtain ⟨settings, disk, path⟩ := before
  cases attempted with
  | @saved now saved =>
      rw [settings, disk, path] at saved
      have rest := after { v with settings := v.settings.put key value, disk := now }
      rw [settings] at rest ⊢
      refine ⟨rest.settingsPath_eq.trans path, ⟨key, value, choice, rest.settings_eq⟩, ?_, ?_⟩
      · intro now again
        rw [Except.map, settled, rest.settings_eq] at again
        cases saved.symm.trans again
        exact rest.disk_eq
      · intro reflects _
        exact looks reflects _ _ _
  | unsaved log status unsaved =>
      rw [settings, disk, path] at unsaved
      have rest := after
        { v with settings := v.settings.put key value, log := log, status := status }
      rw [settings] at rest ⊢
      refine ⟨rest.settingsPath_eq.trans path, ⟨key, value, choice, rest.settings_eq⟩, ?_, ?_⟩
      · intro now again
        rw [Except.map, settled, rest.settings_eq] at again
        cases unsaved.symm.trans again
      · intro reflects _
        exact looks reflects _ _ _
  | refused refused =>
      rw [settings, disk, path] at refused
      rw [settings]
      refine ⟨path, ⟨key, value, choice, rfl⟩, ?_, ?_⟩
      · intro now again
        cases refused.symm.trans again
      · intro _ allowed
        exact absurd refused allowed

theorem adjustment_putSetting {w v : Window} {key : String} {value : JsonValue}
    (choice : Settings.Choice key value) (before : w.KeepsStore v)
    (looks : w.Reflects → ∀ disk log status, Reflects
      { v with settings := w.settings.put key value, disk := disk, log := log, status := status }) :
    w.Adjustment (settled (v.putSetting key value)) := by
  have done := (attempted_putSetting v key value).adjustment (f := id) choice before
    (fun _ => ⟨rfl, rfl, rfl⟩) looks
  rwa [Except.map_id] at done

theorem adjustment_changeFontSize (w : Window) (size : Editor → Int) :
    w.Adjustment (settled (w.changeFontSize fun e => e.setFontSize (size e))) := by
  have least : Editor.minFontSize ≤ (w.editor.setFontSize (size w.editor)).fontSize :=
    le_max_left _ _
  have most : (w.editor.setFontSize (size w.editor)).fontSize ≤ Editor.maxFontSize :=
    max_le (by decide) (min_le_left _ _)
  refine adjustment_putSetting (.fontSize least most) ⟨rfl, rfl, rfl⟩ fun reflects _ _ _ => ?_
  refine reflects.of_sameTheme rfl (by decide) ⟨rfl, rfl, rfl, rfl⟩ ?_ ?_ ?_ ?_
  · exact reflects.indentWidth_eq.trans (Settings.indentWidth_put_of_ne (by decide)).symm
  · -- What is written is within the bounds, so reading it moves it nowhere.
    refine ⟨_, by rw [Settings.fontSize, JsonMembers.get?_put_self]; rfl, ?_⟩
    exact ((congrArg _ (min_eq_right most)).trans (max_eq_right least)).symm
  · exact reflects.wordWrap_eq.trans (Settings.wordWrap_put_of_ne (by decide)).symm
  · exact reflects.wrapChecked_eq.trans (Settings.wordWrap_put_of_ne (by decide)).symm

theorem adjustment_toggleWordWrap (w : Window) : w.Adjustment (settled w.toggleWordWrap) := by
  refine adjustment_putSetting (.wordWrap !w.wrapChecked) ⟨rfl, rfl, rfl⟩ fun reflects _ _ _ => ?_
  have chosen : Settings.wordWrap (w.settings.put "word_wrap" (.bool !w.wrapChecked)) =
      !w.wrapChecked := by
    rw [Settings.wordWrap, JsonMembers.get?_put_self]
    rfl
  refine reflects.of_sameTheme rfl (by decide) ⟨rfl, rfl, rfl, rfl⟩ ?_ ?_ ?_ ?_
  · exact reflects.indentWidth_eq.trans (Settings.indentWidth_put_of_ne (by decide)).symm
  · rw [Settings.fontSize_put_of_ne (by decide)]
    exact reflects.fontSize_eq
  · exact chosen.symm
  · exact chosen.symm

theorem adjustment_setIndentWidth {w v : Window} (before : w.KeepsStore v) {width : Int}
    (within : Settings.minIndentWidth ≤ width ∧ width ≤ Settings.maxIndentWidth)
    (looks : w.Reflects → v.Reflects) : w.Adjustment (settled (v.setIndentWidth width)) := by
  refine adjustment_putSetting (.indentWidth within) ⟨before.settings_eq, before.disk_eq,
    before.settingsPath_eq⟩ fun reflects _ _ _ => ?_
  have old := looks reflects
  rw [← before.settings_eq]
  refine old.of_sameTheme rfl (by decide) ⟨rfl, rfl, rfl, rfl⟩ ?_ ?_ ?_ ?_
  · simp only [Settings.indentWidth, JsonMembers.get?_put_self]
    rfl
  · rw [Settings.fontSize_put_of_ne (by decide)]
    exact old.fontSize_eq
  · exact old.wordWrap_eq.trans (Settings.wordWrap_put_of_ne (by decide)).symm
  · exact old.wrapChecked_eq.trans (Settings.wordWrap_put_of_ne (by decide)).symm

theorem adjustment_setTheme (w : Window) (theme : Theme) :
    w.Adjustment (settled (w.setTheme theme)) := by
  have chosen : Settings.theme (w.settings.put "theme" (.string theme.name)) = theme := by
    rw [Settings.theme, JsonMembers.get?_put_self]
    cases theme <;> rfl
  refine (attempted_putSetting _ "theme" _).adjustment (.theme theme) ⟨rfl, rfl, rfl⟩
    (fun _ => ⟨rfl, rfl, rfl⟩) fun reflects _ _ _ => ?_
  constructor
  · exact reflects.indentWidth_eq.trans (Settings.indentWidth_put_of_ne (by decide)).symm
  · obtain ⟨points, size, shown⟩ := reflects.fontSize_eq
    exact ⟨points, (congrArg _ (Settings.fontSize_put_of_ne (by decide))).trans size, shown⟩
  · exact reflects.wordWrap_eq.trans (Settings.wordWrap_put_of_ne (by decide)).symm
  · exact reflects.wrapChecked_eq.trans (Settings.wordWrap_put_of_ne (by decide)).symm
  · exact congrArg Theme.palette chosen.symm
  · exact congrArg Theme.palette chosen.symm
  · exact congrArg (· == Theme.dark) chosen.symm
  · exact congrArg (· == Theme.light) chosen.symm

/-- **What a command that changes a setting does.** -/
theorem adjustment_run (w : Window) {command : WindowCommand} {answers : Answers}
    (adjusts : Adjusts answers command) : w.Adjustment (w.run [(command, answers)]) := by
  rw [run_singleton]
  cases command with
  | increaseFont => exact adjustment_changeFontSize w fun e => e.fontSize + 1
  | decreaseFont => exact adjustment_changeFontSize w fun e => e.fontSize + -1
  | resetFont => exact adjustment_changeFontSize w fun _ => Editor.defaultFontSize
  | toggleWordWrap => exact adjustment_toggleWordWrap w
  | setTheme theme => exact adjustment_setTheme w theme
  | setIndentWidth width => exact adjustment_setIndentWidth ⟨rfl, rfl, rfl⟩ adjusts id
  | askIndentWidth =>
      obtain ⟨width, given, within⟩ := adjusts
      simp only [perform, askIndentWidth, given]
      refine adjustment_setIndentWidth ?_ within fun reflects => reflects.elsewhere _ _ _ _
      exact ⟨rfl, rfl, rfl⟩
  | edit | newFile | openFile | saveFile | saveFileAs | close | load | openSymbols | pickSymbol =>
      exact adjusts.elim

/-! ### All changes -/

/-- What is true of a window in which settings are changed. -/
structure Survives (limits : NestingLimits) (disk : Disk) (path : Path) (w : Window) (saved : Bool) :
    Prop where
  settingsPath_eq : w.settingsPath = path
  sound : w.settings.Sound
  storable : w.settings.Storable limits
  /-- Members of the file that are no settings are still there. -/
  others : ∀ members, Settings.Stored limits disk path members →
    ∀ key ∉ Settings.defaults.map Prod.fst, w.settings.get? key = members.get? key
  /-- Only where no disk can be asked for the path may the window look different. -/
  looks : w.Reflects ∨ saved = false ∧
    ∀ settings seen, Settings.save settings seen path = .error .nullInName
  loads : saved = true → ∃ loaded log, Settings.load w.disk path limits = .ok (loaded, log) ∧
    ∀ key, loaded.get? key = w.settings.get? key
  keeps : saved = true → ∀ members, Settings.Stored limits disk path members →
    ∃ kept, Settings.Stored limits w.disk path kept ∧
      ∀ key ∉ Settings.defaults.map Prod.fst, kept.get? key = members.get? key

section Surviving

variable {limits : NestingLimits} {disk : Disk} {path : Path}

theorem survives_of_start {w : Window} (started : start disk path limits = .ok w) :
    w.Survives limits disk path true := by
  have opened := opened_of_start started
  obtain ⟨log, done⟩ := opened.loads
  constructor
  · exact opened.settingsPath_eq
  · exact opened.loaded.sound
  · exact opened.loaded.storable
  · exact opened.loaded.others
  · exact .inl opened.reflects
  · rw [opened.disk_eq]
    exact fun _ => ⟨w.settings, log, done, fun _ => rfl⟩
  · rw [opened.disk_eq]
    exact fun _ members stored => ⟨members, stored, fun _ _ => rfl⟩

/-- **A change leaves the settings in the file if they could be saved.** -/
theorem Survives.adjustment {w after : Window} {saved : Bool}
    (survives : w.Survives limits disk path saved) (adjustment : w.Adjustment after) :
    after.Survives limits disk path (after.settings.save w.disk w.settingsPath).isOk := by
  obtain ⟨key, value, choice, settings⟩ := adjustment.settings_eq
  have sound : after.settings.Sound := settings ▸ survives.sound.put choice
  have storable : after.settings.Storable limits := settings ▸ survives.storable.put choice.readable
  have others : ∀ members, Settings.Stored limits disk path members →
      ∀ key ∉ Settings.defaults.map Prod.fst, after.settings.get? key = members.get? key := by
    intro members stored name unknown
    have elsewhere : key ≠ name := fun same => unknown (same ▸ choice.known)
    rw [settings, JsonMembers.get?_put_of_ne _ _ elsewhere]
    exact survives.others members stored name unknown
  have looks : after.Reflects ∨ (after.settings.save w.disk w.settingsPath).isOk = false ∧
      ∀ settings seen, Settings.save settings seen path = .error .nullInName := by
    by_cases refused : after.settings.save w.disk w.settingsPath = .error .nullInName
    · right
      rw [refused, ← survives.settingsPath_eq]
      exact ⟨rfl, Settings.save_refused refused⟩
    · rcases survives.looks with reflects | ⟨-, never⟩
      · exact .inl (adjustment.reflects reflects refused)
      · rw [survives.settingsPath_eq] at refused
        exact absurd (never _ _) refused
  have stored : (after.settings.save w.disk w.settingsPath).isOk = true →
      Settings.Stored limits after.disk path after.settings := by
    intro ok
    cases done : after.settings.save w.disk w.settingsPath with
    | error fault => rw [done] at ok; exact nomatch ok
    | ok now =>
        rw [adjustment.disk_eq now done]
        exact Settings.stored_of_save storable (survives.settingsPath_eq ▸ done)
  refine ⟨adjustment.settingsPath_eq.trans survives.settingsPath_eq, sound, storable, others, looks,
    ?_, ?_⟩
  · exact fun ok => Settings.load_of_stored sound (stored ok)
  · exact fun ok members held => ⟨after.settings, stored ok, others members held⟩

/-- **What is true of every window in which settings are changed.** -/
theorem survives_of_adjusted {w : Window} {saved : Bool}
    (adjusted : Adjusted limits disk path w saved) : w.Survives limits disk path saved := by
  induction adjusted with
  | opened started => exact survives_of_start started
  | adjusted _ adjusts ih => exact ih.adjustment (adjustment_run _ adjusts)
  | declined _ unanswered ih =>
      rw [run_singleton]
      simp only [perform, askIndentWidth, unanswered, settled]
      refine ⟨ih.settingsPath_eq, ih.sound, ih.storable, ih.others, ?_, ih.loads, ih.keeps⟩
      exact ih.looks.imp_left fun reflects => reflects.elsewhere _ _ _ _
  | disturbed left _ ih =>
      refine ⟨ih.settingsPath_eq, ih.sound, ih.storable, ih.others, ?_, by simp, by simp⟩
      rcases ih.looks with reflects | ⟨-, never⟩
      · exact .inl (reflects.elsewhere _ _ _ _)
      · exact .inr ⟨rfl, never⟩

end Surviving

end Window

end LispEditor
