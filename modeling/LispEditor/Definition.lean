import LispEditor.Pattern.Search
import LispEditor.Syntax.Delimiter
import LispEditor.Text.Blank
import LispEditor.Text.Line
import LispEditor.Text.WordChar

/-!
# Definitions

The definitions of a buffer, for a menu that jumps to them. A definition begins with a bracket and a
defining form, `ns` or a word that starts with `def`; metadata may follow, and then its name.
Words that start with `default` define nothing. The kind of a definition depends on its form.

A form that begins in a string, a comment or a literal is no definition. The search still goes on
behind it.
-/

namespace LispEditor

/-- What a definition defines. -/
inductive DefinitionKind where
  | functions
  | types
  | vars
  | namespaces
  deriving DecidableEq, Repr

namespace DefinitionKind

/-- The heading under which definitions of a kind are listed. -/
def title : DefinitionKind → String
  | functions => "Functions"
  | types => "Types"
  | vars => "Variables"
  | namespaces => "Namespaces"

/-- The forms that define something other than a variable. -/
def forms : List (String × DefinitionKind) :=
  [("ns", .namespaces),
   ("defn", .functions), ("defn-", .functions), ("defmacro", .functions), ("defmulti", .functions),
   ("defmethod", .functions),
   ("defrecord", .types), ("deftype", .types), ("defprotocol", .types), ("definterface", .types),
   ("defstruct", .types)]

/-- What a form defines. -/
def ofForm (form : Text) : DefinitionKind :=
  ((forms.find? fun entry => entry.1.toList == form).map Prod.snd).getD .vars

end DefinitionKind

/-- A definition: its name, what it defines, the offset of the name and its line. -/
structure Definition where
  name : Text
  kind : DefinitionKind
  position : Nat
  line : Nat
  deriving DecidableEq, Repr

namespace Definition

/-! ### The head of a definition -/

/-- Whether a character can follow `def` in a defining form. -/
def isFormChar (c : Char) : Bool :=
  Text.isWordChar c || c ∈ ['-', '!', '?', '*']

/-- Whether a character can be part of the name of a definition. -/
def isNameChar (c : Char) : Bool :=
  !(Text.isBlank c || isBracket c || c ∈ ['"', '\x27', ',', ';', '^', '@', '~', '\x60'])

/-- A defining form, of characters that `formChar` accepts behind `def`. -/
def form (formChar : Char → Bool) : Pattern :=
  (Pattern.word ['n', 's']).orElse <|
    (Pattern.word ['d', 'e', 'f']).andThen <|
      (Pattern.absent (Pattern.word ['a', 'u', 'l', 't'])).andThen (Pattern.many formChar)

/-- A map without maps in it. -/
def plainMap : Pattern :=
  (Pattern.char (· == '{')).andThen <|
    (Pattern.many fun c => c != '{' && c != '}').andThen (Pattern.char (· == '}'))

/-- One piece of metadata and the blanks behind it. -/
def metadata : Pattern :=
  (Pattern.char (· == '^')).andThen <|
    (plainMap.orElse (Pattern.oneOrMore fun c => !(Text.isBlank c || isBracket c))).andThen <|
      Pattern.oneOrMore Text.isBlank

/-- Where the parts of a definition's head begin: each field is the rest of the text there. -/
structure Head where
  form : Text
  afterForm : Text
  name : Text
  afterName : Text

/-- The ways to read a definition's head at the start of a text, the preferred one first. -/
def heads (form blanks metadata name : Pattern) (text : Text) : List Head :=
  (Pattern.char (· == '(') text).flatMap fun atForm =>
    (form atForm).flatMap fun afterForm =>
      (blanks.andThen (Pattern.star metadata) afterForm).flatMap fun atName =>
        (name atName).map fun afterName => ⟨atForm, afterForm, atName, afterName⟩

/-- The part of `text` before `rest`, which is an end of it. -/
def upToRest (text rest : Text) : Text :=
  text.take (text.length - rest.length)

/-- The head of a definition at the start of a text. -/
def head? (text : Text) : Option Head :=
  (heads (form isFormChar) (Pattern.oneOrMore Text.isBlank) metadata (Pattern.oneOrMore isNameChar)
    text).head?

/-! ### The definitions of a text -/

/-- A definition's form and name, and how far the name lies behind the bracket. -/
structure Match where
  form : Text
  name : Text
  distance : Nat
  deriving DecidableEq, Repr

/-- The match at the start of a text and how many characters it takes. -/
def match? (text : Text) : Option (Match × Nat) :=
  (head? text).map fun head =>
    (⟨upToRest head.form head.afterForm, upToRest head.name head.afterName,
      text.length - head.name.length⟩, text.length - head.afterName.length)

/-- The definition of a match at `offset` of a text. -/
def ofMatch (text : Text) (offset : Nat) (m : Match) : Definition :=
  let position := offset + m.distance
  ⟨m.name, .ofForm m.form, position, Text.lineNumber text position⟩

/-- The definitions of a text, in order. -/
def ofText (text : Text) : List Definition :=
  let s := Snapshot.ofText text
  ((search (fun _ => match?) text).filter fun (offset, _) => s.kindAt? offset == some .code).map
    fun (offset, m) => ofMatch text offset m

/-! ### Grouping -/

/-- Adds an item behind those of its group, or in a new last group. -/
def addToGroup {κ α : Type} [BEq κ] (key : κ) (item : α) :
    List (κ × List α) → List (κ × List α)
  | [] => [(key, [item])]
  | (other, items) :: groups =>
      if other == key then (other, items ++ [item]) :: groups
      else (other, items) :: addToGroup key item groups

/-- Items by their keys, keys in order of first appearance and items in order. -/
def groupByKey {κ α : Type} [BEq κ] (key : α → κ) (items : List α) : List (κ × List α) :=
  items.foldl (fun groups item => addToGroup (key item) item groups) []

/-- Definitions by kind. -/
def groups (definitions : List Definition) : List (DefinitionKind × List Definition) :=
  groupByKey kind definitions

end Definition

end LispEditor
