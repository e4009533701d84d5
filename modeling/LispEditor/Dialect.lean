import LispEditor.Storage.Path

/-!
# The dialect

Which files hold programs, and how the dialect is called.
-/

namespace LispEditor.Dialect

/-- The name of the dialect. -/
def name : String := "Clojure"

/-- The suffixes of files that hold programs. -/
def fileSuffixes : List String := [".clj", ".cljs", ".cljc", ".edn"]

/-- What begins a comment. -/
def commentMark : String := ";"

/-- Whether a path looks like that of a program. The case of the suffix does not matter; letters
outside ASCII have no lower case among those of the suffixes. -/
def isProgram (path : Path) : Bool :=
  (fileSuffixes.map String.toList).contains (path.suffix.map Char.toLower)

/-- What a file dialog offers to choose from: programs first, then all files. -/
def dialogFilter : String :=
  name ++ " Files (" ++ " ".intercalate (fileSuffixes.map ("*" ++ ·)) ++ ");;All Files (*.*)"

end LispEditor.Dialect
