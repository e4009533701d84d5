import LispEditor.Text.Slice

/-!
# Tokens

The text of a buffer is cut into tokens: single code characters, comments, strings and character
literals. Each token has one kind, and every character has the kind of its token.

* A comment runs from `;` up to the next newline, which is not part of it.
* A string runs from its opening quote up to the next quote that no backslash protects. A string
  that the text ends in is unclosed, and a scan may also begin inside one.
* A backslash in code and the character behind it are a literal. A backslash at the very end of the
  text stands alone.
-/

namespace LispEditor

/-- What a character is part of. -/
inductive Kind where
  | code
  | string
  | comment
  | literal
  deriving DecidableEq, Repr

/-- A maximal piece of text of one kind, except that code characters stand alone. -/
inductive Token where
  | code (char : Char)
  | comment (chars : Text)
  | string (chars : Text) (closed : Bool)
  | literal (chars : Text)
  deriving DecidableEq, Repr

namespace Token

/-- The characters of a token. -/
def text : Token → Text
  | code char => [char]
  | comment chars => chars
  | string chars _ => chars
  | literal chars => chars

/-- The kind of every character of a token. -/
def kind : Token → Kind
  | code _ => .code
  | comment _ => .comment
  | string _ _ => .string
  | literal _ => .literal

/-- Whether a token is a string without its closing quote. -/
def isUnclosed : Token → Bool
  | string _ closed => !closed
  | _ => false

/-- The rest of a string's characters up to and with the closing quote, whether that quote was
found, and the text behind it. A backslash takes the next character with it. -/
def splitString : Text → Text × Bool × Text
  | [] => ([], false, [])
  | '\\' :: c :: rest =>
      let (body, closed, after) := splitString rest
      ('\\' :: c :: body, closed, after)
  | c :: rest =>
      if c == '"' then ([c], true, rest)
      else
        let (body, closed, after) := splitString rest
        (c :: body, closed, after)

/-- Splitting a string loses nothing. -/
theorem splitString_append (text : Text) :
    (splitString text).1 ++ (splitString text).2.2 = text := by
  fun_induction splitString text <;> simp_all

theorem splitString_rest_length_le (text : Text) :
    (splitString text).2.2.length ≤ text.length := by
  have whole := congrArg List.length (splitString_append text)
  simp only [List.length_append] at whole
  omega

/-- The tokens of a text that begins in code. -/
def ofText : Text → List Token
  | [] => []
  | c :: rest =>
      if c == ';' then
        comment (c :: rest.takeWhile (· != '\n')) :: ofText (rest.dropWhile (· != '\n'))
      else if c == '"' then
        string (c :: (splitString rest).1) (splitString rest).2.1 :: ofText (splitString rest).2.2
      else if c == '\\' then
        literal (c :: rest.take 1) :: ofText (rest.drop 1)
      else
        code c :: ofText rest
termination_by text => text.length
decreasing_by
  · have := (List.dropWhile_sublist (l := rest) (· != '\n')).length_le
    simp only [List.length_cons]
    omega
  · have := splitString_rest_length_le rest
    simp only [List.length_cons]
    omega
  · simp only [List.length_cons, List.length_drop]
    omega
  · simp

/-- The tokens of a text that begins inside a string. The first of them is that string, even when
it has no characters left. -/
def ofTextInString (text : Text) : List Token :=
  string (splitString text).1 (splitString text).2.1 :: ofText (splitString text).2.2

/-- The tokens of a text, which begins inside a string when `inString` says so. -/
def scan (text : Text) (inString : Bool) : List Token :=
  if inString then ofTextInString text else ofText text

/-- Whether the text of some tokens ends inside a string. Only the last token can be unclosed. -/
def endInString (tokens : List Token) : Bool :=
  tokens.getLast?.any isUnclosed

/-! ### Nothing is lost -/

/-- The tokens of a text make up the text. -/
theorem flatMap_text_ofText (t : Text) : (ofText t).flatMap text = t := by
  fun_induction ofText t with
  | case1 => rfl
  | case2 c rest isComment ih =>
      simp only [List.flatMap_cons, ih, text, List.cons_append]
      rw [List.takeWhile_append_dropWhile]
  | case3 c rest notComment isString ih =>
      simp only [List.flatMap_cons, ih, text, List.cons_append]
      rw [splitString_append]
  | case4 c rest notComment notString isLiteral ih =>
      simp only [List.flatMap_cons, ih, text, List.cons_append]
      rw [List.take_append_drop]
  | case5 c rest notComment notString notLiteral ih =>
      simp only [List.flatMap_cons, ih, text, List.cons_append, List.nil_append]

/-- So do those of a text that may begin inside a string. -/
theorem flatMap_text_scan (t : Text) (inString : Bool) :
    (scan t inString).flatMap text = t := by
  cases inString with
  | false => exact flatMap_text_ofText t
  | true =>
      show (splitString t).1 ++ (ofText (splitString t).2.2).flatMap text = t
      rw [flatMap_text_ofText, splitString_append]

end Token

end LispEditor
