import Mathlib.Order.Interval.Set.Defs
import Mathlib.Order.Monotone.Basic
import LispEditor.Proofs.Lines
import LispEditor.Text.CharRange
import LispEditor.Text.Utf16

/-!
# Positions and offsets

Offsets count characters and positions count UTF-16 code units. The position of an offset grows with
the offset, and the offset of a position is the first one that reaches it. So the two ways form an
adjoint pair, and how they undo each other follows from that: an offset comes back as it was, and a
position does unless it lies between the two surrogates of a character. Then it comes back as the
position behind the character.

* `strictMonoOn_utf16Position`: positions grow with offsets.
* `ofUtf16Position_le_iff`: the adjunction.
* `splitsPair_iff`: which positions lie between two surrogates.
* `positions_adjoint`: all of it, for every text.
-/

namespace LispEditor.Text

/-! ### Positions of pieces of a text -/

theorem unitsOf_le_two (c : Char) : unitsOf c ≤ 2 := by
  unfold unitsOf
  split <;> omega

theorem utf16Length_eq_zero {text : Text} : utf16Length text = 0 ↔ text = [] := by
  cases text with
  | nil => simp [utf16Length]
  | cons c rest =>
      have positive := unitsOf_pos c
      simp only [utf16Length, reduceCtorEq, iff_false]
      omega

theorem utf16Position_append (a b : Text) : utf16Position (a ++ b) a.length = utf16Length a := by
  have inside : a.length ≤ (a ++ b).length := by
    rw [List.length_append]
    exact Nat.le_add_right _ _
  rw [utf16Position, clamp_natCast_of_le inside, List.take_left]

/-- The position of an offset in the first piece of a text is the same whatever follows. -/
theorem utf16Position_append_of_le {a : Text} {offset : Nat} (inside : offset ≤ a.length)
    (b : Text) : utf16Position (a ++ b) offset = utf16Length (a.take offset) := by
  have reached : offset ≤ (a ++ b).length := by
    rw [List.length_append]
    exact Nat.le_trans inside (Nat.le_add_right _ _)
  rw [utf16Position, clamp_natCast_of_le reached, List.take_append_of_le_length inside]

theorem utf16Position_cons (c : Char) {rest : Text} {offset : Nat} (inside : offset ≤ rest.length) :
    utf16Position (c :: rest) (offset + 1 : Nat) = unitsOf c + utf16Position rest offset := by
  rw [utf16Position, utf16Position, clamp_natCast_of_le inside, List.length_cons,
    clamp_natCast_of_le (Nat.succ_le_succ inside), List.take_succ_cons, utf16Length]

theorem utf16Position_le (text : Text) (offset : Int) :
    utf16Position text offset ≤ utf16Length text := by
  have pieces := utf16Length_append (text.take (clamp text.length offset))
    (text.drop (clamp text.length offset))
  rw [List.take_append_drop] at pieces
  rw [utf16Position]
  omega

/-- **Positions grow with offsets.** -/
theorem strictMonoOn_utf16Position (text : Text) :
    StrictMonoOn (fun offset : Nat => utf16Position text offset) (Set.Iic text.length) := by
  intro start _ stop inside less
  obtain ⟨a, old, b, rfl, rfl, rfl⟩ := exists_append_append less.le inside
  have nonempty : old ≠ [] := by
    rintro rfl
    simp at less
  have units := mt utf16Length_eq_zero.mp nonempty
  have first : utf16Position (a ++ old ++ b) a.length = utf16Length a := by
    rw [List.append_assoc, utf16Position_append]
  have second := utf16Position_append (a ++ old) b
  rw [utf16Length_append] at second
  show utf16Position _ _ < utf16Position _ _
  omega

/-- Positions are in the order of the offsets they stand for. -/
theorem utf16Position_le_iff {text : Text} {start stop : Nat} (startInside : start ≤ text.length)
    (stopInside : stop ≤ text.length) :
    utf16Position text start ≤ utf16Position text stop ↔ start ≤ stop :=
  (strictMonoOn_utf16Position text).le_iff_le startInside stopInside

/-! ### The adjunction -/

theorem ofUtf16Position_le_length (text : Text) (position : Int) :
    ofUtf16Position text position ≤ text.length := by
  induction text generalizing position with
  | nil => exact Nat.le_refl 0
  | cons c rest ih =>
      rw [ofUtf16Position]
      split
      · exact Nat.zero_le _
      · exact Nat.succ_le_succ (ih _)

/-- **The offset of a position is the first one that reaches it.** -/
theorem ofUtf16Position_le_iff {text : Text} {offset : Nat} {position : Int}
    (inside : offset ≤ text.length) (reached : position ≤ utf16Length text) :
    ofUtf16Position text position ≤ offset ↔ position ≤ utf16Position text offset := by
  induction text generalizing offset position with
  | nil =>
      have start : position ≤ 0 := reached
      simp only [ofUtf16Position, Nat.zero_le, true_iff]
      omega
  | cons c rest ih =>
      rw [ofUtf16Position]
      by_cases start : position ≤ 0
      · simp only [if_pos start, Nat.zero_le, true_iff]
        omega
      · rw [if_neg start]
        cases offset with
        | zero =>
            have none : utf16Position (c :: rest) (0 : Nat) = 0 := rfl
            rw [none]
            omega
        | succ offset =>
            have within : offset ≤ rest.length := Nat.le_of_succ_le_succ inside
            rw [utf16Length] at reached
            rw [Nat.add_le_add_iff_right, ih within (by omega), utf16Position_cons c within]
            omega

/-- The offset of a position reaches it. -/
theorem le_utf16Position_ofUtf16Position {text : Text} {position : Int}
    (reached : position ≤ utf16Length text) :
    position ≤ utf16Position text (ofUtf16Position text position) :=
  (ofUtf16Position_le_iff (ofUtf16Position_le_length text position) reached).mp (Nat.le_refl _)

/-- An offset comes back from its position. -/
theorem ofUtf16Position_utf16Position {text : Text} {offset : Nat} (inside : offset ≤ text.length) :
    ofUtf16Position text (utf16Position text offset) = offset := by
  have reached : ((utf16Position text offset : Nat) : Int) ≤ utf16Length text :=
    Int.ofNat_le.mpr (utf16Position_le text offset)
  apply Nat.le_antisymm
  · exact (ofUtf16Position_le_iff inside reached).mpr (Int.le_refl _)
  · apply (utf16Position_le_iff inside (ofUtf16Position_le_length _ _)).mp
    exact Int.ofNat_le.mp (le_utf16Position_ofUtf16Position reached)

/-- The position behind a piece of text leads back to the end of the piece. -/
theorem ofUtf16Position_append (a b : Text) :
    ofUtf16Position (a ++ b) (utf16Length a) = a.length := by
  have inside : a.length ≤ (a ++ b).length := by simp
  rw [← utf16Position_append a b, ofUtf16Position_utf16Position inside]

/-- A position within the first piece of a text leads to the same offset whatever follows. -/
theorem ofUtf16Position_append_left {a : Text} {position : Int}
    (inside : position ≤ utf16Length a) (b : Text) :
    ofUtf16Position (a ++ b) position = ofUtf16Position a position := by
  induction a generalizing position with
  | nil =>
      have outside : position ≤ 0 := inside
      cases b with
      | nil => rfl
      | cons c rest => exact if_pos outside
  | cons c rest ih =>
      rw [List.cons_append, ofUtf16Position, ofUtf16Position]
      rw [utf16Length] at inside
      split
      · rfl
      · rw [ih (by omega)]

/-- The text before the offset of a position reaches up to the position. -/
theorem le_utf16Length_take {text : Text} {position : Int} (inside : position ≤ utf16Length text) :
    position ≤ utf16Length (text.take (ofUtf16Position text position)) := by
  have reached := le_utf16Position_ofUtf16Position inside
  rwa [utf16Position, clamp_natCast_of_le (ofUtf16Position_le_length _ _)] at reached

/-- A position behind a text leads to its end. -/
theorem ofUtf16Position_of_le {text : Text} {position : Int} (behind : utf16Length text ≤ position) :
    ofUtf16Position text position = text.length := by
  induction text generalizing position with
  | nil => rfl
  | cons c rest ih =>
      have positive := unitsOf_pos c
      rw [utf16Length] at behind
      rw [ofUtf16Position, if_neg (by omega), ih (by omega), List.length_cons]

/-- A position before a text leads to its start. -/
theorem ofUtf16Position_of_nonpos (text : Text) {position : Int} (before : position ≤ 0) :
    ofUtf16Position text position = 0 := by
  cases text with
  | nil => rfl
  | cons c rest => exact if_pos before

/-! ### Code units -/

/-- The code units of a character: its code point, or a high and a low surrogate. -/
def codeUnits (c : Char) : List Nat :=
  if c.toNat ≤ 0xFFFF then [c.toNat]
  else [0xD800 + (c.toNat - 0x10000) / 0x400, 0xDC00 + (c.toNat - 0x10000) % 0x400]

/-- A text in UTF-16. -/
def encodeUtf16 (text : Text) : List Nat :=
  text.flatMap codeUnits

/-- A position between two characters, or at an end of the text. -/
def AtBoundary (text : Text) (position : Nat) : Prop :=
  ∃ a b, text = a ++ b ∧ position = (encodeUtf16 a).length

/-- A position between a high and a low surrogate. -/
def SplitsPair (text : Text) (position : Nat) : Prop :=
  ∃ front high low back, encodeUtf16 text = front ++ high :: low :: back ∧
    position = front.length + 1 ∧ (0xD800 ≤ high ∧ high ≤ 0xDBFF) ∧ 0xDC00 ≤ low ∧ low ≤ 0xDFFF

@[simp]
theorem length_codeUnits (c : Char) : (codeUnits c).length = unitsOf c := by
  unfold codeUnits unitsOf
  split
  · next basic => rw [if_neg (Nat.not_lt.mpr basic), List.length_singleton]
  · next astral => rw [if_pos (Nat.lt_of_not_le astral)]; rfl

@[simp]
theorem length_encodeUtf16 (text : Text) : (encodeUtf16 text).length = utf16Length text := by
  induction text with
  | nil => rfl
  | cons c rest ih =>
      rw [encodeUtf16, List.flatMap_cons, List.length_append, length_codeUnits, utf16Length, ← ih]
      rfl

/-- A character of two code units has a high and a low surrogate. -/
theorem codeUnits_eq_pair {c : Char} (two : unitsOf c = 2) :
    ∃ high low, codeUnits c = [high, low] ∧ (0xD800 ≤ high ∧ high ≤ 0xDBFF) ∧
      0xDC00 ≤ low ∧ low ≤ 0xDFFF := by
  obtain ⟨most, -⟩ := toNat_bounds c
  have astral : ¬ c.toNat ≤ 0xFFFF := by
    intro basic
    rw [unitsOf, if_neg (Nat.not_lt.mpr basic)] at two
    omega
  refine ⟨_, _, if_neg astral, ?_⟩
  omega

/-- A high surrogate is the first of the two code units of a character. -/
theorem eq_nil_of_high {c : Char} {front back : List Nat} {high : Nat}
    (units : codeUnits c = front ++ high :: back) (isHigh : 0xD800 ≤ high ∧ high ≤ 0xDBFF) :
    front = [] ∧ unitsOf c = 2 := by
  obtain ⟨-, whole⟩ := toNat_bounds c
  unfold codeUnits at units
  unfold unitsOf
  split at units
  · cases front with
    | nil =>
        obtain ⟨rfl, -⟩ := List.cons.inj units
        omega
    | cons first front => simp at units
  · next astral =>
      cases front with
      | nil => exact ⟨rfl, if_pos (Nat.lt_of_not_le astral)⟩
      | cons first front =>
          cases front with
          | nil =>
              obtain ⟨-, units⟩ := List.cons.inj units
              obtain ⟨rfl, -⟩ := List.cons.inj units
              omega
          | cons second front => simp at units

/-- **Only the two code units of one character are a high and a low surrogate in a row.** -/
theorem splitsPair_iff {text : Text} {position : Nat} :
    SplitsPair text position ↔
      ∃ a c b, text = a ++ c :: b ∧ unitsOf c = 2 ∧ position = utf16Length a + 1 := by
  constructor
  · rintro ⟨front, high, low, back, units, rfl, isHigh, isLow⟩
    induction text generalizing front with
    | nil => simp [encodeUtf16] at units
    | cons c rest ih =>
        rcases in_or_behind units with ⟨_, inFirst, -⟩ | ⟨more, rfl, inRest⟩
        · obtain ⟨rfl, two⟩ := eq_nil_of_high inFirst isHigh
          exact ⟨[], c, rest, rfl, two, rfl⟩
        · obtain ⟨a, d, b, rfl, two, place⟩ := ih more inRest
          refine ⟨c :: a, d, b, rfl, two, ?_⟩
          rw [List.length_append, length_codeUnits, utf16Length, Nat.add_assoc, place, Nat.add_assoc]
  · rintro ⟨a, c, b, rfl, two, rfl⟩
    obtain ⟨high, low, pair, isHigh, isLow⟩ := codeUnits_eq_pair two
    refine ⟨encodeUtf16 a, high, low, encodeUtf16 b, ?_, ?_, isHigh, isLow⟩
    · simp [encodeUtf16, pair]
    · rw [length_encodeUtf16]

/-! ### There and back -/

/-- A position between two surrogates leads to the offset behind their character. -/
theorem ofUtf16Position_of_split (a : Text) {c : Char} (two : unitsOf c = 2) (b : Text) :
    ofUtf16Position (a ++ c :: b) (utf16Length a + 1 : Nat) = (a ++ [c]).length := by
  have before := utf16Position_append a (c :: b)
  have behind := utf16Position_append (a ++ [c]) b
  rw [List.append_assoc, List.singleton_append, utf16Length_append, utf16Length, utf16Length,
    two] at behind
  have reached : ((utf16Length a + 1 : Nat) : Int) ≤ utf16Length (a ++ c :: b) := by
    rw [utf16Length_append, utf16Length, two]
    omega
  apply Nat.le_antisymm
  · rw [ofUtf16Position_le_iff (by simp) reached, behind]
    omega
  · rw [List.length_append, List.length_singleton, Nat.succ_le_iff, ← Nat.not_le,
      ofUtf16Position_le_iff (by simp) reached, before]
    omega

/-- **A position lies between two characters or between two surrogates.** -/
theorem atBoundary_iff {text : Text} {position : Nat} (inside : position ≤ utf16Length text) :
    AtBoundary text position ↔ ¬ SplitsPair text position := by
  constructor
  · rintro ⟨x, y, rfl, rfl⟩ splits
    obtain ⟨a, c, b, same, two, place⟩ := splitsPair_iff.mp splits
    rw [length_encodeUtf16] at place
    have first := ofUtf16Position_append x y
    rw [same, place, ofUtf16Position_of_split a two b] at first
    -- The piece before the position ends where the piece with the character does.
    have division : x ++ y = a ++ [c] ++ b := same.trans (List.append_cons a c b)
    have whole : x = a ++ [c] := (List.append_inj division first.symm).1
    rw [whole, utf16Length_append, utf16Length, utf16Length, two] at place
    omega
  · intro whole
    have reached : (position : Int) ≤ utf16Length text := Int.ofNat_le.mpr inside
    obtain ⟨x, y, rfl, size⟩ := exists_append (ofUtf16Position_le_length text position)
    have enough := le_utf16Position_ofUtf16Position reached
    rw [← size, utf16Position_append] at enough
    refine ⟨x, y, rfl, ?_⟩
    rw [length_encodeUtf16]
    rcases List.eq_nil_or_concat x with rfl | ⟨a, c, rfl⟩
    · exact Nat.le_zero.mp (Int.ofNat_le.mp enough)
    · rw [List.concat_eq_append] at *
      -- The offset before the last character does not reach the position.
      have short : ¬ ofUtf16Position (a ++ [c] ++ y) position ≤ a.length := by
        rw [← size]
        simp
      rw [ofUtf16Position_le_iff (by simp) reached, List.append_assoc, utf16Position_append] at short
      rw [utf16Length_append, utf16Length, utf16Length] at *
      have atMost := unitsOf_le_two c
      by_contra between
      refine whole (splitsPair_iff.mpr ⟨a, c, y, by simp, ?_, ?_⟩)
      · omega
      · omega

/-- The ways between the offsets and the positions of a text: positions grow with offsets and count
code units, the two ways are adjoint, and so an offset comes back as the nearest one in the text, and a
position as itself or as the one behind the pair that it splits. -/
structure PositionsAdjoint (text : Text) : Prop where
  strictMono :
    StrictMonoOn (fun offset : Nat => utf16Position text offset) (Set.Iic text.length)
  counts : ∀ offset ≤ text.length,
    utf16Position text offset = (encodeUtf16 (text.take offset)).length
  adjoint : ∀ offset ≤ text.length, ∀ position : Int, position ≤ (encodeUtf16 text).length →
    (ofUtf16Position text position ≤ offset ↔ position ≤ utf16Position text offset)
  offset_back : ∀ offset : Int,
    (ofUtf16Position text (utf16Position text offset) : Int) = max 0 (min offset text.length)
  boundary_or_pair : ∀ position ≤ (encodeUtf16 text).length,
    AtBoundary text position ↔ ¬ SplitsPair text position
  boundary_back : ∀ position, AtBoundary text position →
    utf16Position text (ofUtf16Position text position) = position
  pair_back : ∀ position, SplitsPair text position →
    utf16Position text (ofUtf16Position text position) = position + 1
  beyond : ∀ position : Int, (encodeUtf16 text).length < position →
    ofUtf16Position text position = text.length
  negative : ∀ position : Int, position < 0 → ofUtf16Position text position = 0

/-- **Offsets and positions form an adjoint pair**, whatever characters of two units a text has. -/
theorem positions_adjoint (text : Text) : PositionsAdjoint text where
  strictMono := strictMonoOn_utf16Position text
  counts := by
    intro offset inside
    rw [length_encodeUtf16, utf16Position, clamp_natCast_of_le inside]
  adjoint := by
    intro offset inside position reached
    rw [length_encodeUtf16] at reached
    exact ofUtf16Position_le_iff inside reached
  offset_back := by
    intro offset
    have same : utf16Position text offset = utf16Position text (clamp text.length offset : Nat) := by
      rw [utf16Position, utf16Position, clamp_natCast_of_le (clamp_le _ _)]
    rw [same, ofUtf16Position_utf16Position (clamp_le _ _), clamp]
    omega
  boundary_or_pair := by
    intro position inside
    rw [length_encodeUtf16] at inside
    exact atBoundary_iff inside
  boundary_back := by
    rintro position ⟨a, b, rfl, rfl⟩
    rw [length_encodeUtf16, ofUtf16Position_append, utf16Position_append]
  pair_back := by
    intro position splits
    obtain ⟨a, c, b, rfl, two, rfl⟩ := splitsPair_iff.mp splits
    rw [ofUtf16Position_of_split a two b, List.append_cons, utf16Position_append, utf16Length_append,
      utf16Length, utf16Length, two]
  beyond := by
    intro position behind
    rw [length_encodeUtf16] at behind
    exact ofUtf16Position_of_le behind.le
  negative := by
    intro position before
    exact ofUtf16Position_of_nonpos text before.le

end LispEditor.Text
