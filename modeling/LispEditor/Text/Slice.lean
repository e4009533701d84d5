/-!
# Offsets and slices

A buffer is a list of characters and an offset is an integer. Two readings of an offset that lies
outside the buffer occur, and each has one function here.

* `clamp` — an offset below 0 is 0, and one beyond the end is the end. Motions use it.
* `resolve` — an offset below 0 counts from the end, and then stops at 0. Slices use it.

`slice` with a start behind its stop is empty. So splicing around such a pair of offsets writes
the characters between them twice, and this is what `splice` does.
-/

namespace LispEditor

/-- The characters of a buffer, or of a part of one. -/
abbrev Text := List Char

namespace Text

/-- The offset of `0 .. size` nearest to `offset`. -/
def clamp (size : Nat) (offset : Int) : Nat :=
  min offset.toNat size

/-- The offset of `0 .. size` that a slice means by `offset`: a negative one counts from the end. -/
def resolve (size : Nat) (offset : Int) : Nat :=
  if offset < 0 then (offset + size).toNat else clamp size offset

variable {α : Type}

/-- Everything before `stop`. -/
def sliceTo (items : List α) (stop : Int) : List α :=
  items.take (resolve items.length stop)

/-- Everything at `start` and after it. -/
def sliceFrom (items : List α) (start : Int) : List α :=
  items.drop (resolve items.length start)

/-- The items from `start` up to and without `stop`. -/
def slice (items : List α) (start stop : Int) : List α :=
  (sliceTo items stop).drop (resolve items.length start)

/-- `items` with `[start, stop)` replaced by `inserted`. -/
def splice (items : List α) (start stop : Int) (inserted : List α) : List α :=
  sliceTo items start ++ inserted ++ sliceFrom items stop

theorem clamp_le (size : Nat) (offset : Int) : clamp size offset ≤ size :=
  Nat.min_le_right _ _

theorem resolve_le (size : Nat) (offset : Int) : resolve size offset ≤ size := by
  unfold resolve clamp
  split <;> omega

@[simp]
theorem clamp_natCast_of_le {size offset : Nat} (inside : offset ≤ size) :
    clamp size (offset : Int) = offset := by
  unfold clamp
  omega

@[simp]
theorem resolve_natCast_of_le {size offset : Nat} (inside : offset ≤ size) :
    resolve size (offset : Int) = offset := by
  unfold resolve clamp
  split <;> omega

end Text

end LispEditor
