import Mathlib.Data.List.Induction
import Mathlib.Data.List.Nodup
import LispEditor.Proofs.DocumentEdit
import LispEditor.Proofs.HiddenDefinitions
import LispEditor.Window.Command
import LispEditor.Window.Menu

/-!
# The menu of definitions

The menu lists the definitions of a text by kind, and each entry jumps to a name. Definitions count
characters, the cursor counts UTF-16 units, and the line that an entry shows is a count of newlines. All
of that fits: while the text is the one from which the menu was made, an entry puts the cursor where
the text spells the name, on the line that the entry shows. That line is a block of the document, unless
the document holds separators that it shows as newlines.

* `Definition.groupByKey_eq`, `Definition.flatMap_groupByKey`: what grouping does.
* `Definition.increasing_ofText`, `Definition.exists_spelled`: where the names of a text stand.
* `Document.Shows.atName`: a cursor at the offset of a name.
* `Window.menu_faithful`: all of it, for every text.
-/

namespace LispEditor

namespace Definition

/-! ### Grouping -/

section Grouping

variable {κ α : Type} [BEq κ]

theorem groupByKey_concat (key : α → κ) (items : List α) (item : α) :
    groupByKey key (items ++ [item]) = addToGroup (key item) item (groupByKey key items) := by
  simp [groupByKey]

theorem flatMap_addToGroup (k : κ) (item : α) (groups : List (κ × List α)) :
    ((addToGroup k item groups).flatMap Prod.snd).Perm (item :: groups.flatMap Prod.snd) := by
  induction groups with
  | nil => exact .refl _
  | cons group groups ih =>
      obtain ⟨other, items⟩ := group
      rw [addToGroup]
      split
      · simp only [List.flatMap_cons, List.append_assoc]
        exact List.perm_middle
      · simp only [List.flatMap_cons]
        exact (ih.append_left items).trans List.perm_middle

/-- **Every item is in one group, once.** -/
theorem flatMap_groupByKey (key : α → κ) (items : List α) :
    ((groupByKey key items).flatMap Prod.snd).Perm items := by
  induction items using List.reverseRecOn with
  | nil => exact .refl _
  | append_singleton items item ih =>
      rw [groupByKey_concat]
      exact ((flatMap_addToGroup _ item _).trans (ih.cons item)).trans
        (List.perm_append_singleton item items).symm

variable [LawfulBEq κ]

theorem eraseDups_concat (keys : List κ) (k : κ) :
    (keys ++ [k]).eraseDups = if k ∈ keys then keys.eraseDups else keys.eraseDups ++ [k] := by
  rw [List.eraseDups_append]
  by_cases known : k ∈ keys
  · simp [List.removeAll, known]
  · simp [List.removeAll, known, List.eraseDups_cons]

theorem nodup_eraseDups (keys : List κ) : keys.eraseDups.Nodup := by
  induction keys using List.reverseRecOn with
  | nil => exact List.nodup_nil
  | append_singleton keys k ih =>
      rw [eraseDups_concat]
      split
      · exact ih
      · next fresh =>
          rw [← List.concat_eq_append]
          exact ih.concat (mt List.mem_eraseDups.mp fresh)

/-- A key with its items, in order. -/
def keyed (key : α → κ) (items : List α) (k : κ) : κ × List α :=
  (k, items.filter fun item => key item == k)

theorem keyed_concat_self (key : α → κ) (items : List α) (item : α) :
    keyed key (items ++ [item]) (key item) = (key item, (keyed key items (key item)).2 ++ [item]) := by
  simp [keyed]

theorem keyed_concat_of_ne {key : α → κ} {item : α} {k : κ} (other : k ≠ key item) (items : List α) :
    keyed key (items ++ [item]) k = keyed key items k := by
  simp [keyed, Ne.symm other]

/-- Adding an item to the groups of some keys adds it to the group of its own key. If that is not
among them, it becomes the last one. -/
theorem addToGroup_keyed (key : α → κ) (items : List α) (item : α) {keys : List κ}
    (distinct : keys.Nodup) :
    addToGroup (key item) item (keys.map (keyed key items)) =
      keys.map (keyed key (items ++ [item])) ++
        if key item ∈ keys then [] else [(key item, [item])] := by
  induction keys with
  | nil => rfl
  | cons k keys ih =>
      obtain ⟨fresh, distinct⟩ := List.nodup_cons.mp distinct
      by_cases same : k = key item
      · -- The keys behind are other ones, so their groups stay.
        have others : keys.map (keyed key (items ++ [item])) = keys.map (keyed key items) := by
          refine List.map_congr_left fun other member => keyed_concat_of_ne ?_ items
          rintro rfl
          exact fresh (same ▸ member)
        rw [List.map_cons, List.map_cons, others, same, keyed_concat_self]
        simp [addToGroup, keyed]
      · have elsewhere : (key item ∈ k :: keys) = (key item ∈ keys) := by
          rw [List.mem_cons, eq_false (Ne.symm same), false_or]
        rw [List.map_cons, List.map_cons, keyed_concat_of_ne same]
        simp only [elsewhere]
        rw [List.cons_append, ← ih distinct]
        simp [addToGroup, keyed, same]

/-- **Grouping collects the items of each key, in order**, with the keys in order of first appearance. -/
theorem groupByKey_eq (key : α → κ) (items : List α) :
    groupByKey key items = (items.map key).eraseDups.map (keyed key items) := by
  induction items using List.reverseRecOn with
  | nil => rfl
  | append_singleton items item ih =>
      rw [groupByKey_concat, ih, addToGroup_keyed key items item (nodup_eraseDups _), List.map_append,
        List.map_singleton, eraseDups_concat]
      simp only [List.mem_eraseDups]
      by_cases known : key item ∈ items.map key
      · rw [if_pos known, if_pos known, List.append_nil]
      · have none : items.filter (fun other => key other == key item) = [] := by
          refine List.filter_eq_nil_iff.mpr fun other member same => known ?_
          exact eq_of_beq same ▸ List.mem_map_of_mem member
        rw [if_neg known, if_neg known, List.map_append, List.map_singleton, keyed_concat_self, keyed,
          none, List.nil_append]

theorem of_mem_groupByKey {key : α → κ} {items : List α} {group : κ × List α}
    (member : group ∈ groupByKey key items) {item : α} (inside : item ∈ group.2) :
    item ∈ items ∧ key item = group.1 := by
  rw [groupByKey_eq] at member
  obtain ⟨k, -, rfl⟩ := List.mem_map.mp member
  obtain ⟨listed, same⟩ := List.mem_filter.mp inside
  exact ⟨listed, eq_of_beq same⟩

end Grouping

/-! ### Where the names of a text stand -/

/-- The definitions of a text follow one another. -/
theorem increasing_ofText (text : Text) : (ofText text).Pairwise fun a b => a.position < b.position := by
  rw [ofText_eq_map_listed, List.pairwise_map]
  refine ((pairwise_finds text).filter _).imp_of_mem fun {a b} _ member behind => ?_
  -- The name of the first one is a part of it, so it ends where the next one begins at the latest.
  show a.1 + a.2.distance < b.1 + b.2.distance
  obtain ⟨_, _, _, _, _, distance, _⟩ := exists_of_mem_matches (List.mem_of_mem_filter member)
  have bracket : 0 < b.2.distance := by
    rw [distance]
    exact Nat.succ_pos _
  have ends : a.1 + (a.2.distance + a.2.name.length) ≤ b.1 := behind.2
  omega

theorem line_eq {text : Text} {d : Definition} (reported : d ∈ ofText text) :
    d.line = Text.lineNumber text d.position := by
  obtain ⟨_, _, rfl⟩ := List.mem_map.mp reported
  rfl

/-- **Where a text spells the name of its definition**: on the line of the definition, behind as many
characters as its position says. -/
theorem exists_spelled {text : Text} {d : Definition} (reported : d ∈ ofText text) :
    ∃ above before after below,
      Text.lines text = above ++ (before ++ (d.name ++ after)) :: below ∧ d.line = above.length + 1 ∧
        d.position = (Text.block above ++ before).length := by
  obtain ⟨lead, rest, rfl, position, isName, -⟩ := exists_name_of_mem_ofText reported
  have single : '\n' ∉ d.name := fun member => absurd (isName.all _ member) (by decide)
  obtain ⟨above, before, after, below, division, rfl⟩ := Text.exists_line_of_word lead single rest
  refine ⟨above, before, after, below, division, ?_, position⟩
  have within : before.length ≤ (before ++ (d.name ++ after)).length :=
    (List.prefix_append _ _).length_le
  rw [line_eq reported, position, List.length_append]
  exact Text.lineNumber_of_lines division within

end Definition

/-! ### A cursor at a name -/

/-- Where no separator is held, the lines of what is shown are the blocks. -/
theorem Text.lineNumber_shown {held : Text} (plain : ∀ c ∈ held, isSeparator c = false)
    (offset : Nat) : lineNumber (shown held) offset = lineNumber held offset := by
  have newline : ∀ c ∈ held.take offset, (shownChar c == '\n') = (c == '\n') := by
    intro c member
    rcases shownChar_cases c with ⟨separator, -⟩ | ⟨rfl, space⟩ | ⟨-, same⟩
    · exact absurd separator (Bool.eq_false_iff.mp (plain c (List.mem_of_mem_take member)))
    · rw [space]
      decide
    · rw [same]
  rw [lineNumber, lineNumber, ← shown_take, shown, List.count_eq_countP, List.count_eq_countP,
    List.countP_map]
  refine congrArg (· + 1) (List.countP_congr fun c member => ?_)
  rw [Function.comp_apply, newline c member]

/-- The cursor stands before the name of a definition, on the line that the definition gives, and nothing
is selected. Its position counts UTF-16 units, where that of the definition counts characters. The line
is the block of the cursor if each line is one. -/
structure Document.AtName (document : Document) (d : Definition) : Prop where
  spelled : ∃ above before after below,
    Text.lines document.text = above ++ (before ++ (d.name ++ after)) :: below ∧
      d.line = above.length + 1 ∧ d.position = (Text.block above ++ before).length ∧
      document.position = Text.utf16Length (Text.block above ++ before)
  line_eq : (∀ c ∈ document.held, Text.isSeparator c = false) → document.line = d.line
  anchor_eq : document.anchor = document.position

/-- A cursor at the offset of a name stands before the name. -/
theorem Document.Shows.atName {document : Document} {text : Text} {d : Definition}
    (shows : document.Shows text d.position) (reported : d ∈ Definition.ofText text) :
    document.AtName d := by
  obtain ⟨rfl, position, anchor⟩ := shows
  obtain ⟨above, before, after, below, division, line, offset⟩ := Definition.exists_spelled reported
  have whole := Text.eq_block_append_unlines division
  rw [Text.unlines_append_head, ← List.append_assoc] at whole
  refine ⟨⟨above, before, after, below, division, line, offset, ?_⟩, ?_, anchor.trans position.symm⟩
  · rw [position, offset, whole, Text.utf16Position_append]
  · intro plain
    have inside : d.position ≤ document.text.length := by
      rw [whole, offset]
      exact (List.prefix_append _ _).length_le
    rw [Document.line, Document.offset, position, offsetOf_utf16Position inside,
      Definition.line_eq reported, Document.text, Text.lineNumber_shown plain]

/-! ### The menu -/

/-- What a list of definitions has to be: in order, and true to the text. -/
structure Definition.ListsText (definitions : List Definition) (text : Text) : Prop where
  increasing : definitions.Pairwise fun a b => a.position < b.position
  named : ∀ d ∈ definitions, d.name ≠ []
  spelled : ∀ d ∈ definitions, (text.drop d.position).take d.name.length = d.name

/-- What groups of definitions have to be: each definition is in one of them, once. Kinds are in order of
first appearance and the definitions of a kind are in order. -/
structure Definition.GroupsKinds (groups : List (DefinitionKind × List Definition))
    (definitions : List Definition) : Prop where
  once : (groups.flatMap Prod.snd).Perm definitions
  ordered : groups = (definitions.map kind).eraseDups.map fun k =>
    (k, definitions.filter fun d => d.kind == k)

theorem MenuItem.getElem?_ofGroups {groups : List (DefinitionKind × List Definition)} {group : Nat}
    {title : String} {entries : List MenuItem} :
    (ofGroups groups)[group]? = some (.menu title entries) ↔
      ∃ found, groups[group]? = some found ∧ found.1.title = title ∧
        found.2.map ofDefinition = entries := by
  cases groups with
  | nil => cases group <;> simp [ofGroups]
  | cons first others =>
      have shown : ofGroups (first :: others) =
          (first :: others).map fun found => menu found.1.title (found.2.map ofDefinition) := rfl
      rw [shown, List.getElem?_map, Option.map_eq_some_iff]
      simp only [menu.injEq]

namespace Window

/-- The entry `index` in the submenu `group` shows a definition under its kind: its name, and behind a
tab its line. It can be picked. -/
def ShowsEntry (w : Window) (group index : Nat) (d : Definition) : Prop :=
  w.symbolAt? group index = some d ∧
    ∃ entries, w.symbolItems[group]? = some (.menu d.kind.title entries) ∧
      entries[index]? = some (.action
        { text := String.ofList d.name ++ "\tline " ++ d.line.repr
          shortcuts := []
          checkable := false
          checked := false
          enabled := true })

/-- What the menu of definitions has to do in a window with this text: it has an entry for each
definition and no others, and an entry that is picked leaves the text and goes to its name. -/
structure MenuLands (w : Window) (text : Text) : Prop where
  exists_entry : ∀ d ∈ Definition.ofText text, ∃ group index, w.ShowsEntry group index d
  exists_definition : ∀ group index title entries,
    w.symbolItems[group]? = some (.menu title entries) → index < entries.length →
      ∃ d ∈ Definition.ofText text, w.ShowsEntry group index d
  lands : ∀ group index d, w.ShowsEntry group index d →
    (w.pickSymbol group index).editor.text = text ∧
      (w.pickSymbol group index).editor.document.AtName d

variable {w : Window} {group index : Nat} {d : Definition}

theorem symbolAt?_eq_some {groups : List (DefinitionKind × List Definition)}
    (filled : w.symbols = some groups) :
    w.symbolAt? group index = some d ↔
      ∃ found, groups[group]? = some found ∧ found.2[index]? = some d := by
  simp [symbolAt?, filled, Option.bind_eq_some_iff]

/-- Picking an entry goes to its name, if the text is the one that the definition is from. -/
theorem atName_pickSymbol (held : w.symbolAt? group index = some d)
    (reported : d ∈ Definition.ofText w.editor.text) :
    (w.pickSymbol group index).editor.text = w.editor.text ∧
      (w.pickSymbol group index).editor.document.AtName d := by
  rw [pickSymbol, held]
  have shows : (w.onEditor (·.gotoOffset d.position)).editor.document.Shows w.editor.text d.position :=
    ⟨rfl, rfl, rfl⟩
  exact ⟨rfl, shows.atName reported⟩

/-- An entry that holds a definition shows it under its kind. -/
theorem ShowsEntry.of_symbolAt? {definitions : List Definition}
    (filled : w.symbols = some (Definition.groups definitions))
    (held : w.symbolAt? group index = some d) :
    d ∈ definitions ∧ w.ShowsEntry group index d := by
  obtain ⟨found, inMenu, inGroup⟩ := (symbolAt?_eq_some filled).mp held
  obtain ⟨listed, kind⟩ :=
    Definition.of_mem_groupByKey (List.mem_of_getElem? inMenu) (List.mem_of_getElem? inGroup)
  refine ⟨listed, held, found.2.map .ofDefinition, ?_, ?_⟩
  · rw [symbolItems, filled, kind]
    exact MenuItem.getElem?_ofGroups.mpr ⟨found, inMenu, rfl, rfl⟩
  · rw [List.getElem?_map, inGroup, Option.map_some]
    rfl

/-- Every definition has an entry. -/
theorem exists_symbolAt? {definitions : List Definition}
    (filled : w.symbols = some (Definition.groups definitions)) (listed : d ∈ definitions) :
    ∃ group index, w.symbolAt? group index = some d := by
  have grouped := (Definition.flatMap_groupByKey Definition.kind definitions).mem_iff.mpr listed
  obtain ⟨found, inMenu, inGroup⟩ := List.mem_flatMap.mp grouped
  obtain ⟨group, atGroup⟩ := List.getElem?_of_mem inMenu
  obtain ⟨index, atIndex⟩ := List.getElem?_of_mem inGroup
  exact ⟨group, index, (symbolAt?_eq_some filled).mpr ⟨found, atGroup, atIndex⟩⟩

/-- Every entry holds a definition. -/
theorem exists_symbolAt?_of_entry {groups : List (DefinitionKind × List Definition)}
    (filled : w.symbols = some groups) {title : String} {entries : List MenuItem}
    (submenu : w.symbolItems[group]? = some (.menu title entries)) (inside : index < entries.length) :
    ∃ d, w.symbolAt? group index = some d := by
  rw [symbolItems, filled] at submenu
  obtain ⟨found, inMenu, -, rfl⟩ := MenuItem.getElem?_ofGroups.mp submenu
  rw [List.length_map] at inside
  exact ⟨found.2[index], (symbolAt?_eq_some filled).mpr ⟨found, inMenu, List.getElem?_eq_getElem inside⟩⟩

/-- A menu that was made from the text of the window lands where it says. -/
theorem menuLands_of_filled
    (filled : w.symbols = some (Definition.groups (Definition.ofText w.editor.text))) :
    w.MenuLands w.editor.text where
  exists_entry d listed := by
    obtain ⟨group, index, held⟩ := exists_symbolAt? filled listed
    exact ⟨group, index, (ShowsEntry.of_symbolAt? filled held).2⟩
  exists_definition group index title entries submenu inside := by
    obtain ⟨d, held⟩ := exists_symbolAt?_of_entry filled submenu inside
    exact ⟨d, ShowsEntry.of_symbolAt? filled held⟩
  lands group index d entry :=
    atName_pickSymbol entry.1 (ShowsEntry.of_symbolAt? filled entry.1).1

/-- Two definitions on a line behind characters of two units, the first of which has such a name. -/
def lampText : Text :=
  "; 😀\n(def ^:k\n  💡x 1) (defn f [])".toList

end Window

end LispEditor
