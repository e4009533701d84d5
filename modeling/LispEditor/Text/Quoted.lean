import LispEditor.Text.Hex
import LispEditor.Text.Printable

/-!
# Quoted texts

A text in messages stands between quotes: single ones, unless it holds a single quote and no double
one. A backslash, the quote itself and whatever cannot be printed are escaped.
-/

namespace LispEditor.Text

/-- The quote to put around a text. -/
def quoteFor (text : List Char) : Char :=
  if text.contains '\x27' && !text.contains '"' then '"' else '\x27'

/-- A character as it stands between quotes. -/
def escapeQuoted (quote : Char) (c : Char) : List Char :=
  if c == quote || c == '\\' then ['\\', c]
  else if c == '\t' then ['\\', 't']
  else if c == '\n' then ['\\', 'n']
  else if c == '\r' then ['\\', 'r']
  else if isPrintable c then [c]
  else if c.toNat < 0x100 then '\\' :: 'x' :: hexDigits 2 c.toNat
  else if c.toNat < 0x10000 then '\\' :: 'u' :: hexDigits 4 c.toNat
  else '\\' :: 'U' :: hexDigits 8 c.toNat

/-- A text between quotes. -/
def quoted (text : List Char) : List Char :=
  let quote := quoteFor text
  quote :: (text.flatMap (escapeQuoted quote) ++ [quote])

end LispEditor.Text
