import LispEditor.Text.Slice

/-!
# UTF-16 positions

A document counts UTF-16 code units: a character above U+FFFF counts two, any other one.
`utf16Position` and `ofUtf16Position` go between such positions and offsets in characters.
-/

namespace LispEditor.Text

/-- How many UTF-16 code units a character takes. -/
def unitsOf (c : Char) : Nat :=
  if c.toNat > 0xFFFF then 2 else 1

/-- The length of a text in UTF-16 code units. -/
def utf16Length : Text → Nat
  | [] => 0
  | c :: rest => unitsOf c + utf16Length rest

theorem unitsOf_pos (c : Char) : 0 < unitsOf c := by
  unfold unitsOf
  split <;> omega

theorem utf16Length_append (a b : Text) :
    utf16Length (a ++ b) = utf16Length a + utf16Length b := by
  induction a with
  | nil => simp [utf16Length]
  | cons c rest ih => simp [utf16Length, ih, Nat.add_assoc]

/-- The position of the character at `offset`, which is clamped to the text. -/
def utf16Position (text : Text) (offset : Int) : Nat :=
  utf16Length (text.take (clamp text.length offset))

/-- The first offset whose position is at least `position`, or the end. A position in the middle
of a character is the offset behind it. -/
def ofUtf16Position : Text → Int → Nat
  | [], _ => 0
  | c :: rest, position =>
      if position ≤ 0 then 0 else ofUtf16Position rest (position - unitsOf c) + 1

end LispEditor.Text
