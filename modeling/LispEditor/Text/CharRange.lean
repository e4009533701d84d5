/-!
# Ranges of characters

Classes of characters are listed as ranges of code points, both ends included.
-/

namespace LispEditor.Text

/-- The first and the last code point of a range. -/
abbrev CharRange := Nat × Nat

/-- Whether a character lies in one of some ranges. -/
def inRanges (ranges : List CharRange) (c : Char) : Bool :=
  ranges.any fun (first, last) => decide (first ≤ c.toNat ∧ c.toNat ≤ last)

/-- No character is a surrogate. -/
theorem toNat_bounds (c : Char) :
    c.toNat < 0x110000 ∧ (c.toNat < 0xD800 ∨ 0xDFFF < c.toNat) := by
  rcases c.valid with low | ⟨high, most⟩
  · have : c.toNat < 0xD800 := low
    omega
  · have : 0xDFFF < c.toNat := high
    have : c.toNat < 0x110000 := most
    omega

end LispEditor.Text
