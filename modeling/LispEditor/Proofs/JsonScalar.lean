import LispEditor.Json.Printer
import LispEditor.Json.Reader
import LispEditor.Proofs.FloatDigits
import LispEditor.Proofs.StoredText

/-!
# Strings and numbers are read as they were written

The parts of a document that hold no others. A string is read back whatever its characters are. A
number is read back if it is one that can be read at all, and if nothing follows that could be a part
of it.

* `JsonValue.readString_stringText`: a string is read back.
* `JsonValue.spells_integer`: a whole number is read back.
* `JsonValue.spells_float`: a floating-point number is read back.
-/

namespace LispEditor

/-! ### Strings -/

theorem Text.hexValue?_hexDigit {n : Nat} (small : n < 16) :
    Text.hexValue? (Text.hexDigit n) = some n := by
  have all : ∀ n : Fin 16, Text.hexValue? (Text.hexDigit n) = some n.val := by decide
  exact all ⟨n, small⟩

namespace JsonValue

/-- The escape of a unit names it. -/
theorem pieces?_unitEscape {n : Nat} (small : n < 0x10000) (rest : Text) :
    pieces? (unitEscape n ++ rest) =
      (pieces? rest).map fun found => (.unit n :: found.1, found.2) := by
  have unit : unit? (Text.hexDigit (n / 16 / 16 / 16 % 16)) (Text.hexDigit (n / 16 / 16 % 16))
      (Text.hexDigit (n / 16 % 16)) (Text.hexDigit (n % 16)) = some n := by
    have value (m : Nat) : Text.hexValue? (Text.hexDigit (m % 16)) = some (m % 16) :=
      Text.hexValue?_hexDigit (Nat.mod_lt m (by decide))
    simp only [unit?, value, Option.bind_eq_bind, Option.bind_some]
    congr 1
    omega
  show pieces? ('\\' :: 'u' :: _ :: _ :: _ :: _ :: rest) = _
  rw [pieces?, unit]
  rfl

theorem pieces?_plain {c : Char} (quote : c ≠ '"') (backslash : c ≠ '\\') (printable : 0x20 ≤ c.toNat)
    (rest : Text) :
    pieces? (c :: rest) = (pieces? rest).map fun found => (.char c :: found.1, found.2) := by
  have ordinary : ¬ (c == '\\' || decide (c.toNat < 0x20)) = true := by
    simp [backslash, printable]
  rw [pieces?]
  · rw [if_neg ordinary]
  · exact quote
  · exact fun _ _ _ _ _ same => absurd same backslash
  · exact fun _ _ same => absurd same backslash

theorem joinPieces_unit {n : Nat} (whole : isHighHalf n = false) (others : List Piece) :
    joinPieces (.unit n :: others) = ofUnit n :: joinPieces others := by
  cases others with
  | nil => rfl
  | cons piece rest =>
      cases piece with
      | char c => rfl
      | unit low => rw [joinPieces, whole, Bool.false_and, if_neg Bool.false_ne_true]

/-- Two halves make the character that was divided into them. -/
theorem joinPieces_halves {n : Nat} (small : n < 0x100000) (others : List Piece) :
    joinPieces (.unit (0xD800 + n / 0x400) :: .unit (0xDC00 + n % 0x400) :: others) =
      Char.ofNat (0x10000 + n) :: joinPieces others := by
  have high : isHighHalf (0xD800 + n / 0x400) = true := decide_eq_true (by omega)
  have low : isLowHalf (0xDC00 + n % 0x400) = true := decide_eq_true (by omega)
  have number : 0x10000 + (0xD800 + n / 0x400 - 0xD800) * 0x400 + (0xDC00 + n % 0x400 - 0xDC00) =
      0x10000 + n := by omega
  rw [joinPieces, high, low, Bool.true_and, if_pos rfl, number]

/-- Some pieces of a string stand for a character, and a text is read as them. -/
def SpellsChar (text : Text) (c : Char) : Prop :=
  ∃ spelling, (∀ rest, pieces? (text ++ rest) =
      (pieces? rest).map fun found => (spelling ++ found.1, found.2)) ∧
    ∀ others, joinPieces (spelling ++ others) = c :: joinPieces others

/-- **A character is read as it was written.** -/
theorem spellsChar_escapeChar (c : Char) : SpellsChar (escapeChar c) c := by
  have itself {text : Text} (read : ∀ rest, pieces? (text ++ rest) =
      (pieces? rest).map fun found => (.char c :: found.1, found.2)) : SpellsChar text c :=
    ⟨[.char c], read, fun others => rfl⟩
  obtain ⟨most, whole⟩ := Text.toNat_bounds c
  unfold escapeChar
  split
  next marked =>
    refine itself fun rest => ?_
    rcases Bool.or_eq_true_iff.mp marked with quote | backslash
    · rw [beq_iff_eq.mp quote]
      rfl
    · rw [beq_iff_eq.mp backslash]
      rfl
  next unmarked =>
  split
  next newline => exact itself fun rest => by rw [beq_iff_eq.mp newline]; rfl
  split
  next carriage => exact itself fun rest => by rw [beq_iff_eq.mp carriage]; rfl
  split
  next tab => exact itself fun rest => by rw [beq_iff_eq.mp tab]; rfl
  split
  next feed => exact itself fun rest => by rw [beq_iff_eq.mp feed]; rfl
  split
  next backspace => exact itself fun rest => by rw [beq_iff_eq.mp backspace]; rfl
  split
  next printable =>
    simp only [Bool.or_eq_true, beq_iff_eq, not_or] at unmarked
    exact itself (pieces?_plain unmarked.1 unmarked.2 printable.1)
  split
  next single =>
    have apart : isHighHalf c.toNat = false ∧ isLowHalf c.toNat = false :=
      ⟨decide_eq_false (by omega), decide_eq_false (by omega)⟩
    refine ⟨[.unit c.toNat], pieces?_unitEscape single, fun others => ?_⟩
    rw [List.singleton_append, joinPieces_unit apart.1, ofUnit, apart.1, apart.2, Bool.or_false,
      if_neg Bool.false_ne_true, Char.ofNat_toNat]
  next double =>
    dsimp only
    refine ⟨[.unit (0xD800 + (c.toNat - 0x10000) / 0x400),
      .unit (0xDC00 + (c.toNat - 0x10000) % 0x400)], fun rest => ?_, fun others => ?_⟩
    · rw [List.append_assoc, pieces?_unitEscape (by omega), pieces?_unitEscape (by omega),
        Option.map_map]
      rfl
    · have number : 0x10000 + (c.toNat - 0x10000) = c.toNat := by omega
      rw [List.cons_append, List.singleton_append, joinPieces_halves (by omega), number,
        Char.ofNat_toNat]

/-- **A string is read as it was written.** -/
theorem readString_stringText (s : String) (rest : Text) :
    readString (s.toList.flatMap escapeChar ++ '"' :: rest) = some (s, rest) := by
  have spelled (text : Text) : ∃ found,
      pieces? (text.flatMap escapeChar ++ '"' :: rest) = some (found, rest) ∧
        joinPieces found = text := by
    induction text with
    | nil => exact ⟨[], rfl, rfl⟩
    | cons c others ih =>
        obtain ⟨found, read, joined⟩ := ih
        obtain ⟨spelling, readFirst, joinedFirst⟩ := spellsChar_escapeChar c
        refine ⟨spelling ++ found, ?_, ?_⟩
        · rw [List.flatMap_cons, List.append_assoc, readFirst, read]
          rfl
        · rw [joinedFirst, joined]
  obtain ⟨found, read, joined⟩ := spelled s.toList
  rw [readString, read]
  simp only [Option.map_some, joined, String.ofList_toList]

/-! ### Digits -/

/-- What may stand behind a value: the end of the document, a comma or a new line. -/
def Ends (rest : Text) : Prop :=
  ∀ c ∈ rest.head?, c = ',' ∨ c = '\n'

/-- A text of digits. -/
def AllDigits (text : Text) : Prop :=
  ∀ c ∈ text, c.isDigit = true

/-- The numbers that single digits stand for. -/
def digitValues (text : Text) : List Nat :=
  text.map fun c => c.toNat - '0'.toNat

/-- The digits of a whole number: a zero stands alone. -/
inductive WholeDigits : Text → Prop
  | zero : WholeDigits ['0']
  | nonzero {c : Char} {tail : Text} : c ≠ '0' → AllDigits (c :: tail) → WholeDigits (c :: tail)

/-- A text in which no digits go on. -/
def StopsDigits (rest : Text) : Prop :=
  ∀ c ∈ rest.head?, c.isDigit = false

theorem Ends.stopsDigits {rest : Text} (ends : Ends rest) : StopsDigits rest := by
  intro c first
  rcases ends c first with rfl | rfl <;> rfl

theorem stopsDigits_cons {c : Char} (other : c.isDigit = false) (rest : Text) :
    StopsDigits (c :: rest) := by
  intro first here
  rwa [← Option.some.inj here]

theorem allDigits_toDigits (n : Nat) : AllDigits (Nat.toDigits 10 n) := fun _ member =>
  Nat.isDigit_of_mem_toDigits (by decide) (by decide) member

theorem allDigits_replicate (count : Nat) : AllDigits (List.replicate count '0') := by
  intro c member
  rw [List.eq_of_mem_replicate member]
  rfl

theorem AllDigits.append {a b : Text} (first : AllDigits a) (second : AllDigits b) :
    AllDigits (a ++ b) := by
  intro c member
  rcases List.mem_append.mp member with left | right
  · exact first c left
  · exact second c right

/-- The first digit of a number above zero is not zero. -/
theorem wholeDigits_toDigits (n : Nat) : WholeDigits (Nat.toDigits 10 n) := by
  have leads {n : Nat} (positive : 0 < n) : ∃ c tail, Nat.toDigits 10 n = c :: tail ∧ c ≠ '0' := by
    induction n using Nat.strongRecOn with
    | _ n ih =>
        rcases Nat.lt_or_ge n 10 with single | several
        · have nonzero : ∀ m : Fin 10, m.val ≠ 0 → Nat.digitChar m.val ≠ '0' := by decide
          rw [Nat.toDigits_of_lt_base single]
          exact ⟨_, [], rfl, nonzero ⟨n, single⟩ (Nat.ne_of_gt positive)⟩
        · obtain ⟨c, tail, first, nonzero⟩ := ih (n / 10) (by omega) (by omega)
          rw [Nat.toDigits_of_base_le (by decide) several, first]
          exact ⟨c, _, rfl, nonzero⟩
  rcases Nat.eq_zero_or_pos n with rfl | positive
  · rw [Nat.toDigits_zero]
    exact .zero
  · obtain ⟨c, tail, first, nonzero⟩ := leads positive
    have all := allDigits_toDigits n
    rw [first] at all ⊢
    exact .nonzero nonzero all

theorem WholeDigits.append {a b : Text} (whole : WholeDigits a) (other : a ≠ ['0'])
    (all : AllDigits b) : WholeDigits (a ++ b) := by
  cases whole with
  | zero => exact absurd rfl other
  | nonzero first digits => exact .nonzero first (digits.append all)

theorem WholeDigits.all {a : Text} (whole : WholeDigits a) : AllDigits a := by
  cases whole with
  | zero => exact allDigits_replicate 1
  | nonzero _ digits => exact digits

theorem WholeDigits.take {a : Text} (whole : WholeDigits a) (count : Nat) :
    WholeDigits (a.take (count + 1)) := by
  cases whole with
  | zero =>
      rw [List.take_succ_cons, List.take_nil]
      exact .zero
  | nonzero first digits =>
      refine .nonzero first fun c member => digits c ?_
      exact List.mem_of_mem_take (l := _ :: _) (i := count + 1) member

theorem ofDigits_digitValues (text : Text) :
    Numeral.ofDigits (digitValues text) = Nat.ofDigitChars 10 text 0 := by
  rw [Numeral.ofDigits, digitValues, List.foldl_map]
  rfl

theorem digitValues_append (a b : Text) : digitValues (a ++ b) = digitValues a ++ digitValues b :=
  List.map_append

theorem length_digitValues (text : Text) : (digitValues text).length = text.length :=
  List.length_map _

/-! ### The parts of a number -/

theorem leadingDigits_append {digits rest : Text} (all : AllDigits digits)
    (stops : StopsDigits rest) : leadingDigits (digits ++ rest) = digitValues digits := by
  have none : rest.takeWhile Char.isDigit = [] := by
    cases rest with
    | nil => rfl
    | cons c tail => rw [List.takeWhile_cons_of_neg (Bool.eq_false_iff.mp (stops c rfl))]
  rw [leadingDigits, List.takeWhile_append_of_pos all, none, List.append_nil]
  rfl

theorem wholeDigits?_append {digits rest : Text} (whole : WholeDigits digits)
    (stops : StopsDigits rest) :
    wholeDigits? (digits ++ rest) = some (digitValues digits, rest) := by
  cases whole with
  | zero => rfl
  | @nonzero c tail first all =>
      have found := leadingDigits_append all stops
      unfold wholeDigits?
      split
      next same => exact absurd (List.cons.inj same).1 first
      next =>
        rw [found]
        show some (digitValues (c :: tail),
          (c :: tail ++ rest).drop (digitValues (c :: tail)).length) = _
        rw [length_digitValues, List.drop_left]

theorem fractionDigits_append {digits rest : Text} (all : AllDigits digits) (some : digits ≠ [])
    (stops : StopsDigits rest) :
    fractionDigits ('.' :: (digits ++ rest)) = (digitValues digits, rest) := by
  have found := leadingDigits_append all stops
  obtain ⟨c, tail, rfl⟩ := List.exists_cons_of_ne_nil some
  rw [fractionDigits, found]
  show (digitValues (c :: tail), (c :: tail ++ rest).drop (digitValues (c :: tail)).length) = _
  rw [length_digitValues, List.drop_left]

theorem fractionDigits_of_ne {rest : Text} (other : ∀ c ∈ rest.head?, c ≠ '.') :
    fractionDigits rest = ([], rest) := by
  unfold fractionDigits
  split
  next => exact absurd rfl (other '.' rfl)
  next => rfl

theorem exponentPart_of_ends {rest : Text} (ends : Ends rest) : exponentPart rest = (none, rest) := by
  cases rest with
  | nil => rfl
  | cons c tail => rcases ends c rfl with rfl | rfl <;> rfl

/-- An exponent behind its mark and its sign. -/
theorem exponentPart_signed (mark : Char) {negative : Bool}
    (signs : ∀ body, Numeral.sign (mark :: body) = (negative, body)) {digits rest : Text}
    (all : AllDigits digits) (some : digits ≠ []) (stops : StopsDigits rest) :
    exponentPart ('e' :: mark :: (digits ++ rest)) =
      (.some (if negative then -(Nat.ofDigitChars 10 digits 0 : Int)
        else Nat.ofDigitChars 10 digits 0), rest) := by
  have found := leadingDigits_append all stops
  obtain ⟨c, tail, rfl⟩ := List.exists_cons_of_ne_nil some
  simp only [exponentPart, beq_self_eq_true, Bool.true_or, if_true, signs, found]
  rw [← ofDigits_digitValues]
  show (_, (c :: tail ++ rest).drop (digitValues (c :: tail)).length) = _
  rw [length_digitValues, List.drop_left]

/-- An exponent is read as it was written. -/
theorem exponentPart_exponentText (exponent : Int) {rest : Text} (stops : StopsDigits rest) :
    exponentPart ('e' :: (Binary64.exponentText exponent ++ rest)) = (some exponent, rest) := by
  have all : AllDigits (List.replicate (2 - (Binary64.digitText exponent.natAbs).length) '0' ++
      Binary64.digitText exponent.natAbs) :=
    (allDigits_replicate _).append (allDigits_toDigits _)
  have some : List.replicate (2 - (Binary64.digitText exponent.natAbs).length) '0' ++
      Binary64.digitText exponent.natAbs ≠ [] :=
    List.append_ne_nil_of_right_ne_nil _ Nat.toDigits_ne_nil
  have value : Nat.ofDigitChars 10
      (List.replicate (2 - (Binary64.digitText exponent.natAbs).length) '0' ++
        Binary64.digitText exponent.natAbs) 0 = exponent.natAbs := by
    rw [Nat.ofDigitChars_append, Nat.ofDigitChars_replicate_zero, Nat.mul_zero]
    exact Nat.ofDigitChars_ten_toDigits
  rw [Binary64.exponentText]
  split
  next negative =>
    have read := exponentPart_signed '-' (fun body => rfl) all some stops
    rw [value] at read
    refine read.trans ?_
    have same : -(exponent.natAbs : Int) = exponent := by omega
    rw [if_pos rfl, same]
  next nonneg =>
    have read := exponentPart_signed '+' (fun body => rfl) all some stops
    rw [value] at read
    refine read.trans ?_
    have same : (exponent.natAbs : Int) = exponent := by omega
    rw [if_neg Bool.false_ne_true, same]

/-! ### Numbers -/

theorem readUnsigned_integer (negative : Bool) {digits rest : Text} (whole : WholeDigits digits)
    (short : digits.length ≤ Numeral.maxDigits) (ends : Ends rest) :
    readUnsigned negative (digits ++ rest) =
      some (integer (if negative then -(Nat.ofDigitChars 10 digits 0 : Int)
        else Nat.ofDigitChars 10 digits 0), rest) := by
  have pointless : ∀ c ∈ rest.head?, c ≠ '.' := by
    intro c first
    rcases ends c first with rfl | rfl <;> decide
  have fits : ¬ (digitValues digits).length > Numeral.maxDigits := by
    rw [length_digitValues]
    exact Nat.not_lt_of_le short
  simp only [readUnsigned, wholeDigits?_append whole ends.stopsDigits, Option.bind_some,
    fractionDigits_of_ne pointless, exponentPart_of_ends ends, List.isEmpty_nil, Option.isNone_none,
    Bool.and_self, if_true, if_neg fits, ofDigits_digitValues]

/-- A number with a point and no exponent. -/
theorem readUnsigned_point (negative : Bool) {whole fraction rest : Text} (left : WholeDigits whole)
    (right : AllDigits fraction) (some : fraction ≠ []) (ends : Ends rest) :
    readUnsigned negative (whole ++ '.' :: (fraction ++ rest)) =
      .some (float (.ofDecimal negative (Nat.ofDigitChars 10 (whole ++ fraction) 0)
        (-(fraction.length : Int))), rest) := by
  have nonempty : (digitValues fraction).isEmpty = false := by
    obtain ⟨c, tail, rfl⟩ := List.exists_cons_of_ne_nil some
    rfl
  have pointed : StopsDigits ('.' :: (fraction ++ rest)) := stopsDigits_cons rfl _
  simp only [readUnsigned, wholeDigits?_append left pointed, Option.bind_some,
    fractionDigits_append right some ends.stopsDigits, exponentPart_of_ends ends, nonempty,
    Bool.false_and, Bool.false_eq_true, if_false, ← digitValues_append, ofDigits_digitValues,
    length_digitValues, Option.getD_none, Int.zero_sub]

/-- A number with an exponent. -/
theorem readUnsigned_exponent (negative : Bool) {whole fraction rest : Text} (exponent : Int)
    (left : WholeDigits whole) (right : AllDigits fraction) (ends : Ends rest) :
    readUnsigned negative (whole ++ ((if fraction = [] then [] else '.' :: fraction) ++
        'e' :: (Binary64.exponentText exponent ++ rest))) =
      some (float (.ofDecimal negative (Nat.ofDigitChars 10 (whole ++ fraction) 0)
        (exponent - fraction.length)), rest) := by
  have marked : StopsDigits ('e' :: (Binary64.exponentText exponent ++ rest)) :=
    stopsDigits_cons rfl _
  have split : fractionDigits ((if fraction = [] then [] else '.' :: fraction) ++
      'e' :: (Binary64.exponentText exponent ++ rest)) =
        (digitValues fraction, 'e' :: (Binary64.exponentText exponent ++ rest)) := by
    by_cases none : fraction = []
    · rw [if_pos none, none]
      rfl
    · rw [if_neg none]
      exact fractionDigits_append right none marked
  have stops : StopsDigits ((if fraction = [] then [] else '.' :: fraction) ++
      'e' :: (Binary64.exponentText exponent ++ rest)) := by
    by_cases none : fraction = []
    · rw [if_pos none]
      exact marked
    · rw [if_neg none]
      exact stopsDigits_cons rfl _
  simp only [readUnsigned, wholeDigits?_append left stops, Option.bind_some, split,
    exponentPart_exponentText exponent ends.stopsDigits, Option.isNone_some, Bool.and_false,
    Bool.false_eq_true, if_false, ← digitValues_append, ofDigits_digitValues, length_digitValues,
    Option.getD_some]

section Decimal

variable {digits rest : Text} (whole : WholeDigits digits) (notZero : digits ≠ ['0'])
  (ends : Ends rest) (negative : Bool) (exponent : Int)

include whole notZero ends

/-- Digits that are written out, with zeros on either side. -/
theorem readUnsigned_positional :
    readUnsigned negative (Binary64.positional digits (exponent + digits.length) ++ rest) =
      some (float (.ofDecimal negative (Nat.ofDigitChars 10 digits 0) exponent), rest) := by
  unfold Binary64.positional
  split
  next small =>
    have padded := (allDigits_replicate (-(exponent + digits.length)).toNat).append whole.all
    have some : List.replicate (-(exponent + digits.length)).toNat '0' ++ digits ≠ [] := by
      refine List.append_ne_nil_of_right_ne_nil _ ?_
      cases whole <;> exact List.cons_ne_nil _ _
    refine (readUnsigned_point negative .zero padded some ends).trans ?_
    have value : Nat.ofDigitChars 10
        (['0'] ++ (List.replicate (-(exponent + digits.length)).toNat '0' ++ digits)) 0 =
          Nat.ofDigitChars 10 digits 0 := by
      rw [Nat.ofDigitChars_append, Nat.ofDigitChars_append, Nat.ofDigitChars_replicate_zero]
      rfl
    have places : -((List.replicate (-(exponent + digits.length)).toNat '0' ++ digits).length : Int) =
        exponent := by
      rw [List.length_append, List.length_replicate]
      omega
    rw [value, places]
  next large =>
  dsimp only
  split
  next =>
    obtain ⟨zeros, rfl⟩ : ∃ zeros : Nat, exponent = zeros := ⟨exponent.toNat, by omega⟩
    have count : ((zeros : Int) + digits.length).toNat - digits.length = zeros := by omega
    have filled : WholeDigits (digits ++ List.replicate zeros '0') :=
      whole.append notZero (allDigits_replicate zeros)
    have fraction : AllDigits ['0'] := allDigits_replicate 1
    have read := readUnsigned_point negative filled fraction (List.cons_ne_nil _ _) ends
    have value : Nat.ofDigitChars 10 (digits ++ List.replicate zeros '0' ++ ['0']) 0 =
        Nat.ofDigitChars 10 digits 0 * 10 ^ (zeros + 1) := by
      rw [Nat.ofDigitChars_append, Nat.ofDigitChars_append, Nat.ofDigitChars_replicate_zero]
      show 10 * (10 ^ zeros * Nat.ofDigitChars 10 digits 0) + 0 = _
      ring
    have places : -((['0'] : Text).length : Int) = zeros - (zeros + 1 : Nat) := by
      push_cast
      show (-1 : Int) = _
      ring
    rw [value, places, Binary64.ofDecimal_mul_pow] at read
    rw [count, List.append_assoc, ← read]
    rfl
  next divided =>
    obtain ⟨count, some⟩ : ∃ count, (exponent + digits.length).toNat = count + 1 :=
      ⟨(exponent + digits.length).toNat - 1, by omega⟩
    rw [some] at divided ⊢
    have fraction : AllDigits (digits.drop (count + 1)) := fun c member =>
      whole.all c (List.mem_of_mem_drop member)
    have nonempty : digits.drop (count + 1) ≠ [] := by
      intro none
      exact divided (List.drop_eq_nil_iff.mp none)
    have read := readUnsigned_point negative (whole.take count) fraction nonempty ends
    have places : -((digits.drop (count + 1)).length : Int) = exponent := by
      rw [List.length_drop]
      omega
    rw [List.take_append_drop, places] at read
    rw [List.append_assoc, ← read]
    rfl

/-- Digits with an exponent. -/
theorem readUnsigned_scientific :
    readUnsigned negative (Binary64.scientific digits (exponent + digits.length - 1) ++ rest) =
      some (float (.ofDecimal negative (Nat.ofDigitChars 10 digits 0) exponent), rest) := by
  cases whole with
  | zero => exact absurd rfl notZero
  | @nonzero c tail first all =>
      have single : WholeDigits [c] := .nonzero first fun d member =>
        all d (List.mem_cons.mpr (.inl (List.mem_singleton.mp member)))
      have others : AllDigits tail := fun d member => all d (List.mem_cons_of_mem c member)
      have read := readUnsigned_exponent negative (exponent + (c :: tail).length - 1) single others
        ends
      have places : exponent + ((c :: tail).length : Int) - 1 - tail.length = exponent := by
        rw [List.length_cons]
        omega
      rw [places] at read
      cases tail with
      | nil => exact read
      | cons d tail =>
          rw [if_neg (List.cons_ne_nil d tail)] at read
          unfold Binary64.scientific
          rw [List.append_assoc, List.append_assoc]
          exact read

end Decimal

/-- A decimal is read as it was written, however it is laid out. -/
theorem readUnsigned_decimal (negative : Bool) {decimal : Binary64.Decimal}
    (nonzero : 0 < decimal.digits) {rest : Text} (ends : Ends rest) :
    readUnsigned negative (decimal.text ++ rest) =
      some (float (.ofDecimal negative decimal.digits decimal.exponent), rest) := by
  have whole := wholeDigits_toDigits decimal.digits
  have value : Nat.ofDigitChars 10 (Nat.toDigits 10 decimal.digits) 0 = decimal.digits :=
    Nat.ofDigitChars_ten_toDigits
  have notZero : Nat.toDigits 10 decimal.digits ≠ ['0'] := by
    intro same
    rw [same] at value
    exact absurd value (Nat.ne_of_lt nonzero)
  unfold Binary64.Decimal.text Binary64.digitText
  dsimp only
  split
  · rw [sub_add_cancel, readUnsigned_positional whole notZero ends, value]
  · rw [readUnsigned_scientific whole notZero ends, value]

/-! ### Values that hold no others -/

/-- A text starts like a word or a number, and it is read as a value whatever stands behind it. -/
structure Spells (text : Text) (value : JsonValue) : Prop where
  first : ∃ c tail, text = c :: tail ∧ (c.isAlphanum = true ∨ c = '-')
  read : ∀ rest, Ends rest →
    (readWord (text ++ rest)).or (readNumber (text ++ rest)) = some (value, rest)

/-- What is read as a number starts with a digit. -/
theorem exists_digit_of_readUnsigned {negative : Bool} {text : Text} {result : JsonValue × Text}
    (read : readUnsigned negative text = some result) :
    ∃ c tail, text = c :: tail ∧ c.isDigit = true := by
  obtain ⟨parts, whole, -⟩ := Option.bind_eq_some_iff.mp read
  unfold wholeDigits? at whole
  split at whole
  next rest => exact ⟨'0', rest, rfl, rfl⟩
  next =>
    cases text with
    | nil => exact nomatch whole
    | cons c tail =>
        by_cases digit : c.isDigit = true
        · exact ⟨c, tail, rfl, digit⟩
        · have none : leadingDigits (c :: tail) = [] := by
            rw [leadingDigits, List.takeWhile_cons_of_neg digit, List.map_nil]
          rw [none] at whole
          exact nomatch whole

/-- No word has a digit among its first two characters. -/
theorem readWord_of_digit {c : Char} (digit : c.isDigit = true) {text : Text}
    (early : c ∈ text.take 2) : readWord text = none := by
  have words : ∀ word ∈ wordValues.map Prod.fst,
      2 ≤ word.toList.length ∧ ∀ d ∈ word.toList.take 2, d.isDigit = false := by
    simp [wordValues]
  refine List.findSome?_eq_none_iff.mpr ?_
  rintro ⟨word, value⟩ listed
  obtain ⟨long, letters⟩ := words word (List.mem_map_of_mem listed)
  refine if_neg fun leads => ?_
  obtain ⟨rest, rfl⟩ := List.isPrefixOf_iff_prefix.mp leads
  rw [List.take_append_of_le_length long] at early
  exact Bool.false_ne_true ((letters c early).symm.trans digit)

/-- A number behind its sign is no word. -/
theorem spells_signed (negative : Bool) {text : Text} {value : JsonValue}
    (read : ∀ rest, Ends rest → readUnsigned negative (text ++ rest) = some (value, rest)) :
    Spells (Binary64.text.signed negative text) value := by
  have nothing : Ends [] := fun c first => nomatch first
  obtain ⟨c, tail, start, digit⟩ := exists_digit_of_readUnsigned (read [] nothing)
  rw [List.append_nil] at start
  subst start
  cases negative with
  | true =>
      refine ⟨⟨'-', c :: tail, rfl, .inr rfl⟩, fun rest ends => ?_⟩
      have noWord : readWord ('-' :: c :: (tail ++ rest)) = none :=
        readWord_of_digit digit (List.mem_cons_of_mem _ List.mem_cons_self)
      show (readWord ('-' :: c :: (tail ++ rest))).or (readUnsigned true (c :: tail ++ rest)) = _
      rw [noWord, read rest ends]
      rfl
  | false =>
      have alphanumeric : c.isAlphanum = true := by
        rw [Char.isAlphanum, digit, Bool.or_true]
      refine ⟨⟨c, tail, rfl, .inl alphanumeric⟩, fun rest ends => ?_⟩
      have noWord : readWord (c :: (tail ++ rest)) = none :=
        readWord_of_digit digit List.mem_cons_self
      have unsigned : readNumber (c :: (tail ++ rest)) =
          readUnsigned false (c :: (tail ++ rest)) := by
        unfold readNumber
        split
        next same =>
          rw [(List.cons.inj same).1] at digit
          exact nomatch digit
        next => rfl
      show (readWord (c :: (tail ++ rest))).or (readNumber (c :: (tail ++ rest))) = _
      rw [noWord, unsigned]
      exact read rest ends

/-- **A whole number is read as it was written**, if it has no more digits than are read. -/
theorem spells_integer {n : Int} (short : n.natAbs < 10 ^ Numeral.maxDigits) :
    Spells (integerText n) (integer n) := by
  have written : integerText n =
      Binary64.text.signed (decide (n < 0)) (Nat.toDigits 10 n.natAbs) := by
    by_cases negative : n < 0 <;> simp [integerText, Binary64.text.signed, negative]
  have length : (Nat.toDigits 10 n.natAbs).length ≤ Numeral.maxDigits :=
    (Nat.length_toDigits_le_iff (by decide) (by decide)).mpr short
  rw [written]
  refine spells_signed _ fun rest ends => ?_
  rw [readUnsigned_integer _ (wholeDigits_toDigits _) length ends, Nat.ofDigitChars_ten_toDigits]
  by_cases negative : n < 0
  · have same : -(n.natAbs : Int) = n := by omega
    rw [if_pos (decide_eq_true negative), same]
  · have same : (n.natAbs : Int) = n := by omega
    rw [if_neg (mt of_decide_eq_true negative), same]

theorem spells_zero (negative : Bool) :
    Spells (Binary64.text.signed negative ['0', '.', '0']) (float (.zero negative)) :=
  spells_signed negative fun _ ends =>
    readUnsigned_point negative .zero (allDigits_replicate 1) (List.cons_ne_nil _ _) ends

/-- **A floating-point number is read as it was written.** -/
theorem spells_float {x : Binary64} (exact : x.Exact) : Spells (x.text specialNames) (float x) := by
  cases x with
  | nan => exact ⟨⟨'N', _, rfl, .inl rfl⟩, fun rest ends => rfl⟩
  | infinite negative =>
      cases negative with
      | true => exact ⟨⟨'-', _, rfl, .inr rfl⟩, fun rest ends => rfl⟩
      | false => exact ⟨⟨'I', _, rfl, .inl rfl⟩, fun rest ends => rfl⟩
  | finite negative significand exponent =>
      cases significand with
      | zero =>
          obtain ⟨-, -, -, long | least⟩ := exact
          · exact absurd long (by decide)
          · rw [least]
            exact spells_zero negative
      | succ significand =>
          have back := Binary64.ofDecimal_shortest exact (Nat.succ_pos significand)
          have nonzero : 0 < (Binary64.shortest negative (significand + 1) exponent).digits := by
            refine Nat.pos_of_ne_zero fun zero => ?_
            rw [zero] at back
            exact nomatch back
          refine spells_signed negative fun rest ends => ?_
          rw [readUnsigned_decimal negative nonzero ends, back]

end JsonValue

end LispEditor
