import LispEditor.Window.Basic

/-!
# Menus

The menus of a window as they are shown: their entries, the shortcuts of these, and which of them
are checked.
-/

namespace LispEditor

/-- An entry of a menu that does something. -/
structure MenuAction where
  text : String
  shortcuts : List String
  checkable : Bool
  checked : Bool
  enabled : Bool
  deriving DecidableEq, Repr

/-- What stands in a menu. -/
inductive MenuItem where
  | separator
  | action (action : MenuAction)
  | menu (title : String) (items : List MenuItem)

namespace MenuItem

/-- An entry that is not checked. -/
def plain (text : String) (shortcuts : List String) : MenuItem :=
  action ⟨text, shortcuts, false, false, true⟩

/-- An entry that may be checked. -/
def check (text : String) (checked : Bool) : MenuItem :=
  action ⟨text, [], true, checked, true⟩

/-- The entry for a definition. -/
def ofDefinition (d : Definition) : MenuItem :=
  plain (String.ofList d.name ++ "\tline " ++ d.line.repr) []

/-- The entries for definitions by kind. -/
def ofGroups : List (DefinitionKind × List Definition) → List MenuItem
  | [] => [action ⟨"No definitions", [], false, false, false⟩]
  | groups => groups.map fun (kind, definitions) => menu kind.title (definitions.map ofDefinition)

end MenuItem

namespace Window

open MenuItem

/-- The menu of definitions, as it was last filled. -/
def symbolItems (w : Window) : List MenuItem :=
  (w.symbols.map ofGroups).getD []

/-- The menus of a window. -/
def menus (w : Window) : List MenuItem :=
  [menu "&File"
    [plain "&New" ["Ctrl+N"], plain "&Open…" ["Ctrl+O"], separator,
     plain "&Save" ["Ctrl+S"], plain "Save &As…" ["Ctrl+Shift+S"], separator,
     plain "E&xit" ["Ctrl+Q"]],
   menu "&Edit" [plain "Indent &Line" [], plain "Re-indent &Buffer" ["Ctrl+Alt+\\"]],
   menu "&View"
    [plain "Increase Font" ["Ctrl++", "Ctrl+="], plain "Decrease Font" ["Ctrl+-"],
     plain "Reset Font Size" ["Ctrl+0"], separator, check "Word Wrap" w.wrapChecked],
   menu "S&ymbols" w.symbolItems,
   menu "&Settings"
    [menu "Theme" [check "Dark" w.darkChecked, check "Light" w.lightChecked], separator,
     plain "Indent Width…" []]]

end Window

end LispEditor
